import Brainfuck.Command

/-! Balance of brackets.
Balance is a matter of counting, and the same thing as being generated by a grammar. The
grammar is what inductions follow; counting shows that only the brackets matter, so that
comments and folded runs change nothing.
-/

namespace Brainfuck

/-- The commands of a program, one for each byte. -/
def Program.commands (program : Program) : List Command :=
  program.toList.map Command.ofByte

/-- No part at the start ends more loops than it begins, and the whole ends them all. -/
structure Balanced (commands : List Command) : Prop where
  initial
    : ∀ initial, initial <+: commands → initial.count .endLoop ≤ initial.count .beginLoop
  whole : commands.count .endLoop = commands.count .beginLoop

/-- Balance is found out by counting in all parts at the start. -/
instance (commands : List Command) : Decidable (Balanced commands) :=
  decidable_of_iff
    ((∀ length < commands.length + 1,
        (commands.take length).count .endLoop ≤ (commands.take length).count .beginLoop)
      ∧ commands.count .endLoop = commands.count .beginLoop)
    ⟨fun ⟨counts, whole⟩ =>
        {
          initial initial isInitial := by
            have counted := counts initial.length (Nat.lt_succ_of_le isInitial.length_le)
            rwa [← List.prefix_iff_eq_take.mp isInitial] at counted
          whole
        },
      fun h => ⟨fun length _ => h.initial _ (List.take_prefix length commands), h.whole⟩⟩

/-- The brackets of a program match. -/
def Program.Matched (program : Program) : Prop :=
  Balanced program.commands

instance (program : Program) : Decidable program.Matched :=
  inferInstanceAs (Decidable (Balanced program.commands))

/-- Commands in which every loop that begins also ends, by the way they are built up. -/
inductive Nested : List Command → Prop
  | nil : Nested []
  | plain {command : Command} {rest : List Command} (notBegin : command ≠ .beginLoop)
    (notEnd : command ≠ .endLoop) (nested : Nested rest)
    : Nested (command :: rest)
  | loop {body rest : List Command} (inside : Nested body) (behind : Nested rest)
    : Nested (.beginLoop :: (body ++ .endLoop :: rest))

/-- Commands that end a number of loops begun before them, one after the other. -/
inductive Closes : Nat → List Command → Prop
  | none {commands : List Command} (nested : Nested commands) : Closes 0 commands
  | one {count : Nat} {body rest : List Command} (inside : Nested body)
    (behind : Closes count rest)
    : Closes (count + 1) (body ++ .endLoop :: rest)

/-- A plain command in front belongs to the first body. -/
theorem Closes.plain {count : Nat} {command : Command} {rest : List Command}
    (notBegin : command ≠ .beginLoop) (notEnd : command ≠ .endLoop) (h : Closes count rest)
    : Closes count (command :: rest) := by
  cases h with
  | none nested => exact .none (.plain notBegin notEnd nested)
  | one inside behind => exact .one (.plain notBegin notEnd inside) behind

/-- A loop that begins in front takes the first end for itself. -/
theorem Closes.beginLoop {count : Nat} {rest : List Command} (h : Closes (count + 1) rest)
    : Closes count (.beginLoop :: rest) := by
  cases h with
  | one inside behind =>
      cases behind with
      | none nested => exact .none (.loop inside nested)
      | one second later =>
          simpa only [List.cons_append, List.append_assoc]
            using Closes.one (.loop inside second) later

/-- Counting decides how many loops commands close, by induction on the commands. -/
theorem closes_of_counts {commands : List Command} {count : Nat}
    (initial
      : ∀ initial, initial <+: commands
          → initial.count .endLoop ≤ initial.count .beginLoop + count)
    (whole : commands.count .endLoop = commands.count .beginLoop + count)
    : Closes count commands := by
  induction commands generalizing count with
  | nil =>
      obtain rfl : count = 0 := by simpa using whole.symm
      exact .none .nil
  | cons command rest ih =>
      have further (part : List Command) (isInitial : part <+: rest) :=
        initial (command :: part) (List.cons_prefix_cons.mpr ⟨rfl, isInitial⟩)
      by_cases begins : command = .beginLoop
      · subst begins
        simp only [List.count_cons, beq_iff_eq, reduceCtorEq, if_false, if_true] at further whole
        apply Closes.beginLoop
        apply ih
        · intro part isInitial
          have bound := further part isInitial
          omega
        · omega
      · by_cases ends : command = .endLoop
        · subst ends
          simp only [List.count_cons, beq_iff_eq, reduceCtorEq, if_false, if_true]
            at further whole
          have first := further [] (List.nil_prefix)
          obtain ⟨outer, rfl⟩ : ∃ outer, count = outer + 1 :=
            ⟨count - 1, by simp at first; omega⟩
          apply Closes.one .nil
          apply ih
          · intro part isInitial
            have bound := further part isInitial
            omega
          · omega
        · simp only [List.count_cons, beq_iff_eq, begins, ends, if_false] at further whole
          exact Closes.plain begins ends (ih further whole)

/-- What the grammar generates is balanced, by induction on the grammar. A part at the start
of a loop ends in its body, right behind it, or later.
-/
theorem Nested.balanced {commands : List Command} (h : Nested commands)
    : Balanced commands := by
  induction h with
  | nil =>
      constructor
      · intro initial isInitial
        rw [List.prefix_nil.mp isInitial]
        exact Nat.le_refl 0
      · rfl
  | @plain command rest notBegin notEnd _ ih =>
      constructor
      · intro initial isInitial
        rcases List.prefix_cons_iff.mp isInitial with rfl | ⟨part, rfl, isPart⟩
        · simp
        · simpa [List.count_cons, notBegin, notEnd] using ih.initial part isPart
      · simpa [List.count_cons, notBegin, notEnd] using ih.whole
  | @loop body rest _ _ inside behind =>
      have wholeBody := inside.whole
      constructor
      · intro initial isInitial
        rcases List.prefix_cons_iff.mp isInitial with rfl | ⟨part, rfl, remains, split⟩
        · simp
        · rcases List.append_eq_append_iff.mp split with ⟨within, tail, _⟩ | ⟨past, rfl, tail⟩
          · have bound := inside.initial part ⟨within, tail.symm⟩
            simp only [List.count_cons, beq_iff_eq, reduceCtorEq, if_false, if_true]
            omega
          · rcases List.prefix_cons_iff.mp ⟨remains, tail.symm⟩ with rfl | ⟨later, rfl, isLater⟩
            · simp only [List.count_cons, List.count_append, List.count_nil, beq_iff_eq,
                reduceCtorEq, if_false, if_true]
              omega
            · have bound := behind.initial later isLater
              simp only [List.count_cons, List.count_append, beq_iff_eq, reduceCtorEq, if_false,
                if_true]
              omega
      · have wholeRest := behind.whole
        simp only [List.count_cons, List.count_append, beq_iff_eq, reduceCtorEq, if_false,
          if_true]
        omega

/-- Commands are balanced when the grammar generates them. -/
theorem balanced_iff_nested {commands : List Command}
    : Balanced commands ↔ Nested commands := by
  constructor
  · intro h
    have closes : Closes 0 commands :=
      closes_of_counts (by simpa using h.initial) (by simpa using h.whole)
    cases closes with
    | none nested => exact nested
  · exact Nested.balanced

-----------------------------------------------------------------------------------------
-- Only the brackets matter
-----------------------------------------------------------------------------------------

/-- The commands that begin or end loops. -/
def Command.isBracket : Command → Bool
  | .beginLoop | .endLoop => true
  | _ => false

/-- Commands without everything else than brackets. -/
def brackets (commands : List Command) : List Command :=
  commands.filter Command.isBracket

@[simp] theorem count_beginLoop_brackets (commands : List Command)
    : (brackets commands).count .beginLoop = commands.count .beginLoop :=
  List.count_filter rfl

@[simp] theorem count_endLoop_brackets (commands : List Command)
    : (brackets commands).count .endLoop = commands.count .endLoop :=
  List.count_filter rfl

/-- Commands are balanced when their brackets are, because parts at the start correspond
and counts stay.
-/
theorem balanced_brackets {commands : List Command}
    : Balanced (brackets commands) ↔ Balanced commands := by
  constructor
  · intro h
    constructor
    · intro initial isInitial
      simpa using h.initial (brackets initial) (isInitial.filter Command.isBracket)
    · simpa using h.whole
  · intro h
    constructor
    · rintro initial ⟨more, split⟩
      -- A part at the start of the brackets is what is left of a part at the start.
      obtain ⟨first, second, rfl, rfl, _⟩ := List.filter_eq_append_iff.mp split.symm
      have bound := h.initial first (List.prefix_append first second)
      rwa [← count_endLoop_brackets, ← count_beginLoop_brackets] at bound
    · simpa using h.whole

/-- The same brackets are balanced alike. -/
theorem balanced_congr {left right : List Command} (h : brackets left = brackets right)
    : Balanced left ↔ Balanced right := by
  rw [← balanced_brackets, h, balanced_brackets]

-----------------------------------------------------------------------------------------
-- Places around loops
-----------------------------------------------------------------------------------------

section Around

variable {α : Type} {whole front body behind : List α} {next opening closing : α}

theorem split_behind (split : whole = front ++ next :: behind)
    : whole = (front ++ [next]) ++ behind :=
  split.trans (List.append_cons front next behind)

theorem split_at_end (split : whole = front ++ opening :: (body ++ closing :: behind))
    : whole = (front ++ opening :: body) ++ closing :: behind := by
  simp [split]

theorem split_behind_loop (split : whole = front ++ opening :: (body ++ closing :: behind))
    : whole = (front ++ opening :: (body ++ [closing])) ++ behind := by
  simp [split]

/-- What stands in front of the element at an index is as long as the index. -/
theorem exists_split_of_getElem? {index : Nat} (found : whole[index]? = some next)
    : ∃ before behind, whole = before ++ next :: behind ∧ before.length = index := by
  obtain ⟨lt, rfl⟩ := List.getElem?_eq_some_iff.mp found
  refine ⟨whole.take index, whole.drop (index + 1), ?_, ?_⟩
  · rw [List.getElem_cons_drop, List.take_append_drop]
  · rw [List.length_take]
    omega

/-- An element of lists that are joined stands in one of them, by induction on the lists. -/
theorem exists_split_of_flatMap {β : Type} {parts : β → List α} {all : List β}
    (split : all.flatMap parts = front ++ next :: behind)
    : ∃ earlier part later before after,
        all = earlier ++ part :: later
        ∧ parts part = before ++ next :: after
        ∧ front = earlier.flatMap parts ++ before := by
  induction all generalizing front with
  | nil => simp at split
  | cons first others ih =>
      have further {rest : List α} (inside : others.flatMap parts = rest ++ next :: behind)
          : ∃ earlier part later before after,
              first :: others = earlier ++ part :: later
              ∧ parts part = before ++ next :: after
              ∧ parts first ++ rest = earlier.flatMap parts ++ before := by
        obtain ⟨earlier, part, later, before, after, rfl, own, rfl⟩ := ih inside
        exact ⟨first :: earlier, part, later, before, after, rfl, own,
          (List.append_assoc _ _ _).symm⟩
      rw [List.flatMap_cons] at split
      rcases List.append_eq_append_iff.mp split with ⟨middle, rfl, tail⟩ | ⟨middle, own, tail⟩
      · exact further tail
      · cases middle with
        | nil =>
            rw [List.append_nil] at own
            rw [← own, ← List.append_nil (parts first)]
            exact further tail.symm
        | cons same middle =>
            obtain ⟨rfl, -⟩ := List.cons.inj tail
            exact ⟨[], first, others, front, middle, rfl, own, rfl⟩

theorem length_at_end (front body : List α) (opening : α)
    : (front ++ opening :: body).length = front.length + 1 + body.length := by
  rw [List.length_append, List.length_cons]
  omega

end Around

-----------------------------------------------------------------------------------------
-- Partners
-----------------------------------------------------------------------------------------

/-- Every beginning of a loop has a partner behind it, by induction on the grammar: the
beginning is the first one of a loop, within its body, or behind it.
-/
theorem Nested.exists_end {before behind : List Command}
    (h : Nested (before ++ .beginLoop :: behind))
    : ∃ body later, behind = body ++ .endLoop :: later ∧ Nested body := by
  generalize whole : before ++ .beginLoop :: behind = commands at h
  induction h generalizing before behind with
  | nil => simp at whole
  | plain notBegin _ _ ih =>
      cases before with
      | nil =>
          simp only [List.nil_append, List.cons.injEq] at whole
          exact absurd whole.1.symm notBegin
      | cons first before =>
          simp only [List.cons_append, List.cons.injEq] at whole
          exact ih whole.2
  | @loop body rest inside _ ihBody ihRest =>
      cases before with
      | nil =>
          simp only [List.nil_append, List.cons.injEq] at whole
          exact ⟨body, rest, whole.2, inside⟩
      | cons first before =>
          simp only [List.cons_append, List.cons.injEq] at whole
          rcases List.append_eq_append_iff.mp whole.2 with
            ⟨middle, rfl, tail⟩ | ⟨middle, rfl, tail⟩
          · cases middle with
            | nil => simp at tail
            | cons next middle =>
                simp only [List.cons_append, List.cons.injEq] at tail
                obtain ⟨rfl, rfl⟩ := tail
                obtain ⟨partner, later, rfl, nested⟩ := ihBody rfl
                exact ⟨partner, later ++ .endLoop :: rest, by simp, nested⟩
          · cases middle with
            | nil => simp at tail
            | cons next middle =>
                simp only [List.cons_append, List.cons.injEq] at tail
                exact ihRest tail.2.symm

/-- Every end of a loop has a partner in front of it, by induction on the grammar: the end
is within the body of the first loop, right behind that body, or later.
-/
theorem Nested.exists_begin {before behind : List Command}
    (h : Nested (before ++ .endLoop :: behind))
    : ∃ earlier body, before = earlier ++ .beginLoop :: body ∧ Nested body := by
  generalize whole : before ++ .endLoop :: behind = commands at h
  induction h generalizing before behind with
  | nil => simp at whole
  | plain _ notEnd _ ih =>
      cases before with
      | nil =>
          simp only [List.nil_append, List.cons.injEq] at whole
          exact absurd whole.1.symm notEnd
      | cons first before =>
          simp only [List.cons_append, List.cons.injEq] at whole
          obtain ⟨earlier, body, rfl, nested⟩ := ih whole.2
          exact ⟨first :: earlier, body, rfl, nested⟩
  | @loop body rest inside _ ihBody ihRest =>
      cases before with
      | nil => simp at whole
      | cons first before =>
          simp only [List.cons_append, List.cons.injEq] at whole
          obtain ⟨rfl, whole⟩ := whole
          rcases List.append_eq_append_iff.mp whole with
            ⟨middle, rfl, tail⟩ | ⟨middle, rfl, tail⟩
          · cases middle with
            | nil => exact ⟨[], before, rfl, by simpa using inside⟩
            | cons next middle =>
                simp only [List.cons_append, List.cons.injEq] at tail
                obtain ⟨rfl, rfl⟩ := tail
                obtain ⟨earlier, partner, rfl, nested⟩ := ihBody rfl
                exact ⟨.beginLoop :: earlier, partner, rfl, nested⟩
          · cases middle with
            | nil => exact ⟨[], body, by simp, inside⟩
            | cons next middle =>
                simp only [List.cons_append, List.cons.injEq] at tail
                obtain ⟨earlier, partner, rfl, nested⟩ := ihRest tail.2.symm
                exact ⟨.beginLoop :: (body ++ next :: earlier), partner, by simp, nested⟩

/-- The end of a loop does not belong to the body, because it would be one end too many. -/
theorem Nested.not_nested_endLoop {body rest : List Command} (h : Nested body)
    : ¬ Nested (body ++ .endLoop :: rest) := by
  intro nested
  have bound := nested.balanced.initial (body ++ [.endLoop]) ⟨rest, by simp⟩
  have whole := h.balanced.whole
  simp only [List.count_append, List.count_cons, List.count_nil, beq_iff_eq, reduceCtorEq,
    if_false, if_true] at bound
  omega

/-- The beginning of a loop does not belong to the body, because it would lack an end. -/
theorem Nested.not_nested_beginLoop {body front : List Command} (h : Nested body)
    : ¬ Nested (front ++ .beginLoop :: body) := by
  intro nested
  have bound := nested.balanced.initial front (List.prefix_append front _)
  have whole := nested.balanced.whole
  have wholeBody := h.balanced.whole
  simp only [List.count_append, List.count_cons, beq_iff_eq, reduceCtorEq, if_false, if_true]
    at whole
  omega

/-- There is one partner behind the beginning of a loop. -/
theorem Nested.end_unique {body other behind later : List Command} (h : Nested body)
    (hOther : Nested other) (same : body ++ .endLoop :: behind = other ++ .endLoop :: later)
    : body = other := by
  rcases List.append_eq_append_iff.mp same with ⟨middle, rfl, tail⟩ | ⟨middle, rfl, tail⟩
  · cases middle with
    | nil => rw [List.append_nil]
    | cons command middle =>
        obtain ⟨rfl, -⟩ := List.cons.inj tail
        exact absurd hOther h.not_nested_endLoop
  · cases middle with
    | nil => rw [List.append_nil]
    | cons command middle =>
        obtain ⟨rfl, -⟩ := List.cons.inj tail
        exact absurd h hOther.not_nested_endLoop

/-- There is one partner in front of the end of a loop. -/
theorem Nested.begin_unique {earlier front body other : List Command} (h : Nested body)
    (hOther : Nested other)
    (same : earlier ++ .beginLoop :: body = front ++ .beginLoop :: other)
    : body = other := by
  rcases List.append_eq_append_iff.mp same with ⟨middle, rfl, tail⟩ | ⟨middle, rfl, tail⟩
  · cases middle with
    | nil => exact (List.cons.inj tail).2
    | cons command middle =>
        obtain ⟨rfl, rfl⟩ := List.cons.inj tail
        exact absurd h hOther.not_nested_beginLoop
  · cases middle with
    | nil => exact (List.cons.inj tail).2.symm
    | cons command middle =>
        obtain ⟨rfl, rfl⟩ := List.cons.inj tail
        exact absurd hOther h.not_nested_beginLoop

end Brainfuck
