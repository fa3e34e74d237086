import Brainfuck.Proofs.Brackets.Blame
import Brainfuck.Proofs.Brackets.Search
import Mathlib.Data.List.Induction

/-! The matching of brackets, whether they are balanced or not.
A stack pairs brackets off in one pass; an end for which nothing waits is passed over. Its pairs
are exactly the brackets that enclose something balanced, and these are the ones that both
searches find, from wherever they start.
-/

namespace Brainfuck

-----------------------------------------------------------------------------------------
-- Pairs by a stack
-----------------------------------------------------------------------------------------

/-- The brackets that a stack pairs off among commands from an offset on, when it holds the
offsets of the beginnings that wait, the innermost first.
-/
def pairOff (waiting : List Nat) (offset : Nat) : List Command → List (Nat × Nat)
  | [] => []
  | .beginLoop :: rest => pairOff (offset :: waiting) (offset + 1) rest
  | .endLoop :: rest =>
      match waiting with
      | [] => pairOff [] (offset + 1) rest
      | opening :: outer => (opening, offset) :: pairOff outer (offset + 1) rest
  | _ :: rest => pairOff waiting (offset + 1) rest

/-- The brackets that a stack pairs off in one pass. -/
def stackPairs (commands : List Command) : List (Nat × Nat) :=
  pairOff [] 0 commands

theorem pairOff_plain {command : Command} (notBegin : command ≠ .beginLoop)
    (notEnd : command ≠ .endLoop) (waiting : List Nat) (offset : Nat) (rest : List Command)
    : pairOff waiting offset (command :: rest) = pairOff waiting (offset + 1) rest := by
  cases command <;> first | rfl | contradiction

/-- Commands behind which these beginnings wait. Nothing is known of what stands in front of
them, since ends for which nothing waits are passed over.
-/
inductive Stacked : List Command → List Nat → Prop
  | none {commands : List Command} : Stacked commands []
  | one {outer inside : List Command} {waiting : List Nat} (before : Stacked outer waiting)
    (nested : Nested inside)
    : Stacked (outer ++ .beginLoop :: inside) (outer.length :: waiting)

/-- Nested commands behind others leave the stack alone. -/
theorem Stacked.append {commands : List Command} {waiting : List Nat}
    (h : Stacked commands waiting) {more : List Command} (nested : Nested more)
    : Stacked (commands ++ more) waiting := by
  cases h with
  | none => exact .none
  | one before inside =>
      rw [List.append_assoc, List.cons_append]
      exact .one before (inside.append nested)

/-- What a stack pairs off encloses something balanced, by induction on the commands that are
left.
-/
theorem partners_of_mem_pairOff {passed rest : List Command} {waiting : List Nat}
    (stacked : Stacked passed waiting) {opening closing : Nat}
    (member : (opening, closing) ∈ pairOff waiting passed.length rest)
    : Partners (passed ++ rest) opening closing := by
  induction rest generalizing passed waiting with
  | nil => cases member
  | cons command rest ih =>
      have length : (passed ++ [command]).length = passed.length + 1 := List.length_append
      rw [List.append_cons]
      by_cases begins : command = .beginLoop
      · subst begins
        exact ih (.one stacked .nil) (length ▸ member)
      · by_cases ends : command = .endLoop
        · subst ends
          cases stacked with
          | none => exact ih .none (length ▸ member)
          | @one outer inside waiting before nested =>
              rcases List.mem_cons.mp member with same | member
              · obtain ⟨rfl, rfl⟩ := Prod.mk.inj same
                rw [length_at_end]
                have encloses
                    : Partners (outer ++ .beginLoop :: (inside ++ .endLoop :: rest)) outer.length
                        (outer.length + 1 + inside.length) :=
                  .enclose nested.balanced
                simpa using encloses
              · have closed : Stacked (outer ++ .beginLoop :: inside ++ [.endLoop]) waiting := by
                  rw [List.append_assoc, List.cons_append]
                  exact before.append (.loop nested .nil)
                exact ih closed (length ▸ member)
        · rw [pairOff_plain begins ends, ← length] at member
          exact ih (stacked.append (.plain begins ends .nil)) member

/-- A pass goes on behind any commands with some stack, by induction on them. -/
theorem exists_pairOff_append (waiting : List Nat) (offset : Nat) (before : List Command)
    : ∃ pairs left,
        ∀ rest,
          pairOff waiting offset (before ++ rest)
          = pairs ++ pairOff left (offset + before.length) rest := by
  induction before generalizing waiting offset with
  | nil => exact ⟨[], waiting, fun rest => rfl⟩
  | cons command before ih =>
      have place : offset + (command :: before).length = offset + 1 + before.length := by
        rw [List.length_cons]
        omega
      rw [place]
      by_cases begins : command = .beginLoop
      · subst begins
        exact ih (offset :: waiting) (offset + 1)
      · by_cases ends : command = .endLoop
        · subst ends
          cases waiting with
          | nil => exact ih [] (offset + 1)
          | cons opening outer =>
              obtain ⟨pairs, left, passes⟩ := ih outer (offset + 1)
              exact ⟨(opening, offset) :: pairs, left, fun rest => congrArg _ (passes rest)⟩
        · obtain ⟨pairs, left, passes⟩ := ih waiting (offset + 1)
          refine ⟨pairs, left, ?_⟩
          intro rest
          rw [List.cons_append, pairOff_plain begins ends]
          exact passes rest

/-- A pass goes on behind nested commands with the same stack, by induction on the grammar. -/
theorem pairOff_nested {inside : List Command} (nested : Nested inside) (waiting : List Nat)
    (offset : Nat) (rest : List Command)
    : ∃ pairs,
        pairOff waiting offset (inside ++ rest)
        = pairs ++ pairOff waiting (offset + inside.length) rest := by
  induction nested generalizing waiting offset rest with
  | nil => exact ⟨[], rfl⟩
  | @plain command inside notBegin notEnd _ ih =>
      obtain ⟨pairs, passes⟩ := ih waiting (offset + 1) rest
      refine ⟨pairs, ?_⟩
      rw [List.cons_append, pairOff_plain notBegin notEnd, passes, List.length_cons]
      congr 2
      omega
  | @loop body behind _ _ ihBody ihBehind =>
      obtain ⟨inner, passesBody⟩ :=
        ihBody (offset :: waiting) (offset + 1) (.endLoop :: (behind ++ rest))
      obtain ⟨outer, passesBehind⟩ := ihBehind waiting (offset + 1 + body.length + 1) rest
      refine ⟨inner ++ (offset, offset + 1 + body.length) :: outer, ?_⟩
      rw [List.cons_append, List.append_assoc, List.cons_append, pairOff, passesBody, pairOff,
        passesBehind, List.append_assoc, List.cons_append]
      simp only [List.length_cons, List.length_append]
      congr 4
      omega

/-- A stack pairs off exactly the brackets that enclose something balanced. -/
theorem mem_stackPairs_iff {commands : List Command} {opening closing : Nat}
    : (opening, closing) ∈ stackPairs commands ↔ Partners commands opening closing := by
  constructor
  · intro member
    have partners : Partners ([] ++ commands) opening closing :=
      partners_of_mem_pairOff .none member
    exact partners
  · intro partners
    cases partners with
    | @enclose before body behind inside =>
        obtain ⟨pairs, left, passes⟩ := exists_pairOff_append [] 0 before
        obtain ⟨inner, passesBody⟩ :=
          pairOff_nested (balanced_iff_nested.mp inside) (before.length :: left)
            (before.length + 1) (.endLoop :: behind)
        rw [stackPairs, passes, Nat.zero_add, pairOff, passesBody, pairOff]
        simp

-- The first end is passed over, and the first beginning waits in vain.
example
    : stackPairs [.endLoop, .beginLoop, .beginLoop, .increment, .endLoop, .input] = [(2, 4)] :=
  rfl

-----------------------------------------------------------------------------------------
-- What stands between two places
-----------------------------------------------------------------------------------------

/-- The commands strictly between two places. A place need not be that of a command. -/
def between (commands : List Command) (front behind : Int) : List Command :=
  (commands.take behind.toNat).drop (front + 1).toNat

theorem between_eq {front inside later : List Command} {start closing : Int}
    (starts : start + 1 = front.length) (stops : closing = front.length + inside.length)
    : between (front ++ (inside ++ later)) start closing = inside := by
  have head : (start + 1).toNat = front.length := by omega
  have whole : closing.toNat = (front ++ inside).length := by
    rw [List.length_append]
    omega
  rw [between, head, whole, ← List.append_assoc, List.take_left, List.drop_left]

namespace Program

variable {program : Program} {start : Int} {opening closing : Nat}

/-- The `]` at an offset closes what begins right behind a start. -/
structure ClosesFrom (program : Program) (start : Int) (closing : Nat) : Prop where
  behind : start < closing
  ends : program[closing]? = some closeBracket
  inside : Balanced (between program.commands start closing)

/-- The `[` at an offset opens what ends right in front of a start. -/
structure OpensTo (program : Program) (start : Int) (opening : Nat) : Prop where
  front : opening < start
  begins : program[opening]? = some openBracket
  inside : Balanced (between program.commands opening start)

theorem commands_eq_endLoop_iff
    : program.commands[closing]? = some .endLoop ↔ program[closing]? = some closeBracket := by
  simp [commands, Option.map_eq_some_iff, Command.ofByte_eq_endLoop]

theorem commands_eq_beginLoop_iff
    : program.commands[opening]? = some .beginLoop ↔ program[opening]? = some openBracket := by
  simp [commands, Option.map_eq_some_iff, Command.ofByte_eq_beginLoop]

/-- A `]` closes what begins behind a start when nested commands lead up to it. -/
theorem closesFrom_iff (lower : -1 ≤ start)
    : program.ClosesFrom start closing
      ↔ ∃ front inside later,
          program.commands = front ++ (inside ++ .endLoop :: later)
          ∧ start + 1 = front.length
          ∧ Nested inside
          ∧ closing = front.length + inside.length := by
  constructor
  · intro h
    obtain ⟨before, later, split, rfl⟩ :=
      exists_split_of_getElem? (commands_eq_endLoop_iff.mpr h.ends)
    have behind := h.behind
    have inside := h.inside
    refine ⟨before.take (start + 1).toNat, before.drop (start + 1).toNat, later, ?_, ?_, ?_, ?_⟩
    · rw [← List.append_assoc, List.take_append_drop, split]
    · rw [List.length_take]
      omega
    · rw [between, split, Int.toNat_natCast, List.take_left] at inside
      exact balanced_iff_nested.mp inside
    · rw [← List.length_append, List.take_append_drop]
  · rintro ⟨front, inside, later, split, starts, nested, rfl⟩
    refine ⟨by omega, commands_eq_endLoop_iff.mp ?_, ?_⟩
    · simp [split]
    · rw [split, between_eq starts (Int.natCast_add _ _)]
      exact nested.balanced

/-- A `[` opens what ends in front of a start when nested commands lead up to there. -/
theorem opensTo_iff (upper : start ≤ program.size)
    : program.OpensTo start opening
      ↔ ∃ earlier inside behind,
          program.commands = earlier ++ .beginLoop :: (inside ++ behind)
          ∧ start = (earlier ++ .beginLoop :: inside).length
          ∧ Nested inside
          ∧ opening = earlier.length := by
  constructor
  · intro h
    have begins := commands_eq_beginLoop_iff.mpr h.begins
    obtain ⟨earlier, rest, split, rfl⟩ := exists_split_of_getElem? begins
    have front := h.front
    have inside := h.inside
    have size : program.size = earlier.length + (rest.length + 1) := by
      rw [← length_commands, split]
      simp
    refine ⟨earlier, rest.take (start.toNat - earlier.length - 1),
      rest.drop (start.toNat - earlier.length - 1), ?_, ?_, ?_, rfl⟩
    · rw [List.take_append_drop, split]
    · rw [length_at_end, List.length_take]
      omega
    · have whole
          : program.commands
            = (earlier ++ [.beginLoop])
              ++ (rest.take (start.toNat - earlier.length - 1)
                ++ rest.drop (start.toNat - earlier.length - 1)) := by
        rw [List.take_append_drop, split, List.append_assoc, List.singleton_append]
      rw [whole, between_eq] at inside
      · exact balanced_iff_nested.mp inside
      · simp
      · simp only [List.length_append, List.length_singleton, List.length_take]
        omega
  · rintro ⟨earlier, inside, behind, split, rfl, nested, rfl⟩
    refine ⟨?_, commands_eq_beginLoop_iff.mp ?_, ?_⟩
    · rw [length_at_end]
      omega
    · simp [split]
    · rw [split, List.append_cons, between_eq]
      · exact nested.balanced
      · simp
      · rw [length_at_end, List.length_append, List.length_singleton]
        omega

-----------------------------------------------------------------------------------------
-- What the searches find
-----------------------------------------------------------------------------------------

/-- What a search forwards has passed when it stops at a `]`: commands that close the loops that
were open, by induction on the commands that are left.
-/
theorem closes_of_closingAmongLast {front rest : List Command}
    (split : program.commands = front ++ rest) {depth : Nat}
    (found : program.closingAmongLast depth rest.length = some closing)
    : ∃ inside later,
        rest = inside ++ .endLoop :: later
        ∧ Closes depth inside
        ∧ closing = front.length + inside.length := by
  induction rest generalizing front depth with
  | nil => simp [closingAmongLast] at found
  | cons command rest ih =>
      have longer (inside : List Command)
          : (front ++ [command]).length + inside.length
            = front.length + (command :: inside).length := by
        simp only [List.length_append, List.length_cons, List.length_nil]
        omega
      by_cases begins : command = .beginLoop
      · subst begins
        rw [closingAmongLast_beginLoop split] at found
        obtain ⟨inside, later, rfl, closes, rfl⟩ := ih (split_behind split) found
        exact ⟨.beginLoop :: inside, later, rfl, closes.beginLoop, longer inside⟩
      · by_cases ends : command = .endLoop
        · subst ends
          rw [closingAmongLast_endLoop split] at found
          cases depth with
          | zero => exact ⟨[], rest, rfl, .none .nil, (Option.some.inj found).symm⟩
          | succ outer =>
              obtain ⟨inside, later, rfl, closes, rfl⟩ := ih (split_behind split) found
              exact ⟨.endLoop :: inside, later, rfl, .one .nil closes, longer inside⟩
        · rw [closingAmongLast_plain split begins ends] at found
          obtain ⟨inside, later, rfl, closes, rfl⟩ := ih (split_behind split) found
          exact ⟨command :: inside, later, rfl, closes.plain begins ends, longer inside⟩

/-- What a search backwards has passed when it stops at a `[`: commands behind which as many
loops wait as were closed, by induction on the commands that are left.
-/
theorem waits_of_openingBefore {front behind : List Command}
    (split : program.commands = front ++ behind) {depth : Nat}
    (found : program.openingBefore depth front.length = some opening)
    : ∃ earlier inside waiting,
        front = earlier ++ .beginLoop :: inside
        ∧ Waits inside waiting
        ∧ waiting.length = depth
        ∧ opening = earlier.length := by
  induction front using List.reverseRecOn generalizing behind depth with
  | nil => simp [openingBefore] at found
  | append_singleton front command ih =>
      rw [List.append_assoc, List.singleton_append] at split
      by_cases ends : command = .endLoop
      · subst ends
        rw [openingBefore_endLoop split] at found
        obtain ⟨earlier, inside, waiting, rfl, waits, length, rfl⟩ := ih split found
        obtain ⟨innermost, outer, rfl⟩ := List.exists_cons_of_length_eq_add_one length
        exact ⟨earlier, inside ++ [.endLoop], outer, by simp, waits.endLoop,
          Nat.succ.inj length, rfl⟩
      · by_cases begins : command = .beginLoop
        · subst begins
          rw [openingBefore_beginLoop split] at found
          cases depth with
          | zero => exact ⟨front, [], [], rfl, .none .nil, rfl, (Option.some.inj found).symm⟩
          | succ outer =>
              obtain ⟨earlier, inside, waiting, rfl, waits, length, rfl⟩ := ih split found
              exact ⟨earlier, inside ++ [.beginLoop], inside.length :: waiting, by simp,
                waits.beginLoop, congrArg Nat.succ length, rfl⟩
        · rw [openingBefore_plain split begins ends] at found
          obtain ⟨earlier, inside, waiting, rfl, waits, length, rfl⟩ := ih split found
          exact ⟨earlier, inside ++ [command], waiting, by simp, waits.plain begins ends, length,
            rfl⟩

/-- The search forwards finds the `]` that closes what begins behind its start. -/
theorem closingOf_eq_ok_iff (lower : -1 ≤ start)
    : program.closingOf start = .ok closing ↔ program.ClosesFrom start closing := by
  rw [closesFrom_iff lower]
  constructor
  · intro found
    unfold closingOf at found
    split at found
    · rename_i address search
      cases found
      have split := (List.take_append_drop (start + 1).toNat program.commands).symm
      have left
          : program.size - (start + 1).toNat
            = (program.commands.drop (start + 1).toNat).length := by
        rw [List.length_drop, length_commands]
      rw [left] at search
      obtain ⟨inside, later, rest, closes, rfl⟩ := closes_of_closingAmongLast split search
      cases closes with
      | none nested =>
          rw [rest] at split
          refine ⟨_, inside, later, split, ?_, nested, rfl⟩
          have within := congrArg List.length rest
          rw [List.length_drop, List.length_append, List.length_cons] at within
          rw [List.length_take]
          omega
    · contradiction
  · rintro ⟨front, inside, later, split, starts, nested, rfl⟩
    have left : program.size - (start + 1).toNat = (inside ++ .endLoop :: later).length := by
      rw [← length_commands, split, List.length_append]
      omega
    have atEnd : program.commands = (front ++ inside) ++ .endLoop :: later := by
      rw [split, List.append_assoc]
    rw [closingOf, left, closingAmongLast_nested nested split, closingAmongLast_endLoop atEnd]
    simp

/-- The search backwards finds the `[` that opens what ends in front of its start. -/
theorem openingOf_eq_ok_iff (upper : start ≤ program.size)
    : program.openingOf start = .ok opening ↔ program.OpensTo start opening := by
  rw [opensTo_iff upper]
  constructor
  · intro found
    unfold openingOf at found
    split at found
    · rename_i address search
      cases found
      have split := (List.take_append_drop start.toNat program.commands).symm
      have left : start.toNat = (program.commands.take start.toNat).length := by
        rw [List.length_take, length_commands]
        omega
      rw [left] at search
      obtain ⟨earlier, inside, waiting, front, waits, length, rfl⟩ :=
        waits_of_openingBefore split search
      obtain rfl := List.length_eq_zero_iff.mp length
      rw [front] at split left
      refine ⟨earlier, inside, _, by simpa using split, ?_, waits.nested, rfl⟩
      rw [← left]
      have positive : start.toNat ≠ 0 := by
        rw [left, length_at_end]
        omega
      omega
    · contradiction
  · rintro ⟨earlier, inside, behind, split, starts, nested, rfl⟩
    have within : program.commands = (earlier ++ [.beginLoop]) ++ (inside ++ behind) :=
      split_behind split
    rw [openingOf, starts, Int.toNat_natCast, List.append_cons,
      openingBefore_nested nested within, openingBefore_beginLoop split]

/-- A search fails for a bracket without a partner, and blames its start. -/
def BlamesStart (search : Except Fault Nat) (start : Int) : Prop :=
  ∃ fault, search = .error fault ∧ fault.kind = .unmatchedBracket ∧ fault.position? = some start

/-- A search that can only blame its start does so when there is nothing to find. -/
theorem blamesStart_iff {search : Except Fault Nat} {found : Nat → Prop}
    (finds : ∀ place, search = .ok place ↔ found place)
    (blames
      : ∀ fault,
          search = .error fault
          → fault.kind = .unmatchedBracket ∧ fault.position? = some start)
    : BlamesStart search start ↔ ∀ place, ¬ found place := by
  constructor
  · rintro ⟨fault, failed, _⟩ place isFound
    rw [(finds place).mpr isFound] at failed
    contradiction
  · intro none
    cases search with
    | ok place => exact absurd ((finds place).mp rfl) (none place)
    | error fault => exact ⟨fault, rfl, blames fault rfl⟩

/-- The search forwards fails, and blames its start, when nothing closes what begins there. -/
theorem blamesStart_closingOf_iff (lower : -1 ≤ start)
    : BlamesStart (program.closingOf start) start
      ↔ ∀ closing, ¬ program.ClosesFrom start closing := by
  refine blamesStart_iff (fun closing => closingOf_eq_ok_iff lower) ?_
  intro fault search
  unfold closingOf at search
  split at search <;> cases search
  exact ⟨rfl, rfl⟩

/-- The search backwards fails, and blames its start, when nothing opens what ends there. -/
theorem blamesStart_openingOf_iff (upper : start ≤ program.size)
    : BlamesStart (program.openingOf start) start
      ↔ ∀ opening, ¬ program.OpensTo start opening := by
  refine blamesStart_iff (fun opening => openingOf_eq_ok_iff upper) ?_
  intro fault search
  unfold openingOf at search
  split at search <;> cases search
  exact ⟨rfl, rfl⟩

/-- What begins somewhere is closed in one place at most. -/
theorem ClosesFrom.unique {other : Nat} (lower : -1 ≤ start)
    (closes : program.ClosesFrom start closing) (closesOther : program.ClosesFrom start other)
    : closing = other := by
  have found := (closingOf_eq_ok_iff lower).mpr closes
  have foundOther := (closingOf_eq_ok_iff lower).mpr closesOther
  exact Except.ok.inj (found.symm.trans foundOther)

/-- What ends somewhere is opened in one place at most. -/
theorem OpensTo.unique {other : Nat} (upper : start ≤ program.size)
    (opens : program.OpensTo start opening) (opensOther : program.OpensTo start other)
    : opening = other := by
  have found := (openingOf_eq_ok_iff upper).mpr opens
  have foundOther := (openingOf_eq_ok_iff upper).mpr opensOther
  exact Except.ok.inj (found.symm.trans foundOther)

-----------------------------------------------------------------------------------------
-- Searches from brackets
-----------------------------------------------------------------------------------------

/-- The partner of a `[` closes what begins behind it. -/
theorem partners_iff_closesFrom
    : Partners program.commands opening closing
      ↔ program[opening]? = some openBracket ∧ program.ClosesFrom opening closing := by
  rw [closesFrom_iff (by omega), ← commands_eq_beginLoop_iff]
  constructor
  · intro partners
    generalize program.commands = commands at partners
    cases partners with
    | @enclose before body behind inside =>
        refine ⟨by simp, before ++ [.beginLoop], body, behind, by simp, by simp, ?_, by simp⟩
        exact balanced_iff_nested.mp inside
  · rintro ⟨begins, front, inside, later, split, starts, nested, rfl⟩
    obtain ⟨before, rest, whole, rfl⟩ := exists_split_of_getElem? begins
    have length : (before ++ [Command.beginLoop]).length = front.length := by
      rw [List.length_append, List.length_singleton]
      omega
    obtain ⟨rfl, rfl⟩ := List.append_inj ((split_behind whole).symm.trans split) length
    rw [whole, List.length_append, List.length_singleton]
    exact .enclose nested.balanced

/-- The partner of a `]` opens what ends in front of it. -/
theorem partners_iff_opensTo
    : Partners program.commands opening closing
      ↔ program[closing]? = some closeBracket ∧ program.OpensTo closing opening := by
  constructor
  · intro partners
    obtain ⟨begins, closes⟩ := partners_iff_closesFrom.mp partners
    exact ⟨closes.ends, closes.behind, begins, closes.inside⟩
  · rintro ⟨ends, opens⟩
    exact partners_iff_closesFrom.mpr ⟨opens.begins, opens.front, ends, opens.inside⟩

/-- Both searches lead from a bracket to its partner. -/
theorem searches_of_partners (partners : Partners program.commands opening closing)
    : program.closingOf opening = .ok closing ∧ program.openingOf closing = .ok opening := by
  obtain ⟨_, closes⟩ := partners_iff_closesFrom.mp partners
  obtain ⟨_, opens⟩ := partners_iff_opensTo.mp partners
  have upper := (Array.getElem?_eq_some_iff.mp closes.ends).1
  exact ⟨(closingOf_eq_ok_iff (by omega)).mpr closes, (openingOf_eq_ok_iff (by omega)).mpr opens⟩

/-- Nothing is opened in front of the start of a program. -/
theorem not_opensTo_of_nonpositive (nonpositive : start ≤ 0) : ¬ program.OpensTo start opening := by
  intro opens
  have front := opens.front
  omega

end Program

end Brainfuck
