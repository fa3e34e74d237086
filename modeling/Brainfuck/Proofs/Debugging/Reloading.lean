import Brainfuck.Proofs.Compilation.Verdict
import Brainfuck.Proofs.Debugging.Requests

/-! Loading again.
A load forgets everything but the configuration and the breakpoints: the debugger answers all
later requests as a new one does that holds the same breakpoints, whatever was asked of it
before. A load that is refused leaves no trace.
-/

namespace Brainfuck

namespace Breakpoints

/-- Breakpoints that a debugger can hold: in order, and at addresses that are not negative. -/
structure Proper (entries : List Breakpoint) : Prop where
  ordered : Ordered entries
  nonnegative : ∀ entry ∈ entries, 0 ≤ entry.address

theorem contains_eq_false {breakpoints : Breakpoints} {address : Int}
    : breakpoints.contains address = false
      ↔ ∀ entry ∈ breakpoints.entries, entry.address ≠ address := by
  simp [contains, find?]

theorem Proper.add {breakpoints after : Breakpoints} {breakpoint : Breakpoint}
    (proper : Proper breakpoints.entries) (adds : breakpoints.add breakpoint = .ok after)
    : Proper after.entries := by
  unfold Breakpoints.add at adds
  split at adds
  · contradiction
  · rename_i nonnegative
    split at adds
    · contradiction
    · rename_i new
      cases adds
      refine ⟨proper.ordered.insertOrdered ?_, ?_⟩
      · exact contains_eq_false.mp (Bool.eq_false_iff.mpr new)
      · intro entry member
        rcases mem_insertOrdered.mp member with rfl | member
        · exact Int.not_lt.mp nonnegative
        · exact proper.nonnegative entry member

theorem Proper.remove {breakpoints after : Breakpoints} {address : Int}
    {breakpoint : Breakpoint} (proper : Proper breakpoints.entries)
    (removes : breakpoints.remove address = .ok (breakpoint, after))
    : Proper after.entries := by
  unfold Breakpoints.remove at removes
  split at removes
  · contradiction
  · cases removes
    refine ⟨proper.ordered.filter _, ?_⟩
    intro entry member
    exact proper.nonnegative entry (List.mem_filter.mp member).1

theorem Proper.switch {breakpoints : Breakpoints} (proper : Proper breakpoints.entries)
    (address : Int) (enabled : Bool)
    : Proper (breakpoints.switch address enabled).entries := by
  have same
      : ∀ entry : Breakpoint,
          (if entry.address = address then { entry with enabled } else entry).address
            = entry.address := by
    intro entry
    split <;> rfl
  constructor
  · have ordered
        : breakpoints.entries.Pairwise fun left right => left.address < right.address :=
      proper.ordered
    refine List.pairwise_map.mpr ?_
    simpa only [same] using ordered
  · intro entry member
    obtain ⟨before, also, rfl⟩ := List.mem_map.mp member
    rw [same]
    exact proper.nonnegative before also

/-- A breakpoint behind all others is put at the end, by list induction. -/
theorem insertOrdered_eq_append {breakpoint : Breakpoint} {entries : List Breakpoint}
    (last : ∀ entry ∈ entries, entry.address < breakpoint.address)
    : insertOrdered breakpoint entries = entries ++ [breakpoint] := by
  induction entries with
  | nil => rfl
  | cons first later ih =>
      have front := last first List.mem_cons_self
      have rest := ih fun entry member => last entry (List.mem_cons_of_mem first member)
      simp only [insertOrdered, Int.not_lt.mpr (Int.le_of_lt front), if_false, rest,
        List.cons_append]

end Breakpoints

/-- A program is accepted, or compiled and refused for a bracket without partner. -/
theorem Configuration.exists_code (configuration : Configuration) (program : Program)
    : (∃ code,
        configuration.code? program = .ok code
        ∧ (configuration.engine = .virtualMachine → program.Matched))
      ∨ ∃ fault,
          configuration.code? program = .error fault
          ∧ fault.kind = .unmatchedBracket
          ∧ configuration.engine = .virtualMachine
          ∧ ¬ program.Matched := by
  unfold code?
  cases configuration.engine with
  | interpreter => exact Or.inl ⟨_, rfl, nofun⟩
  | virtualMachine =>
      rcases program.compile_or_blames configuration.level with
        ⟨list, compiled⟩ | ⟨fault, refused, blames⟩
      · rw [compiled]
        exact Or.inl ⟨_, rfl, fun _ => Program.matched_of_compile compiled⟩
      · rw [refused]
        refine Or.inr ⟨fault, rfl, ?_, rfl, ?_⟩
        · cases blames <;> rfl
        · intro matched
          exact Balanced.not_blames matched fault blames

namespace Debugger

open Machine

-----------------------------------------------------------------------------------------
-- Configuration and breakpoints
-----------------------------------------------------------------------------------------

/-- A debugger with a configuration, and with breakpoints that a new one can be given. -/
structure Equipped (configuration : Configuration) (debugger : Debugger) : Prop where
  configuration : debugger.configuration = configuration
  proper : Breakpoints.Proper debugger.breakpoints.entries

/-- A pursuit keeps the breakpoints, by induction on the notices that are admitted. -/
theorem entries_pursue {α : Type} (hear : α → Notice → α) (allowance : Nat) (heard : α)
    (breakpoints : Breakpoints) (machine : Machine)
    : (pursue hear allowance heard breakpoints machine).state.1.entries
      = breakpoints.entries := by
  induction allowance generalizing heard breakpoints machine with
  | zero =>
      unfold pursue
      split
      · rfl
      · rcases answer : breakpoints.query machine.counter with ⟨interrupts, passed⟩
        have same : breakpoints.entries = passed.entries := congrArg (·.2.entries) answer
        cases interrupts <;> exact same.symm
  | succ left ih =>
      unfold pursue
      split
      · rfl
      · rcases answer : breakpoints.query machine.counter with ⟨interrupts, passed⟩
        have same : breakpoints.entries = passed.entries := congrArg (·.2.entries) answer
        cases interrupts with
        | true => exact same.symm
        | false =>
            rcases machine.attempt hear (left + 1) heard with ⟨next, later, admitted, ending⟩
            cases ending with
            | returned => exact (ih later passed next).trans same.symm
            | failed fault => exact same.symm
            | refused => exact same.symm

theorem kept_equipped (configuration : Configuration) : Kept (Equipped configuration) where
  execute := by
    intro debugger equipped α hear allowance heard
    obtain ⟨other, breakpoints, _ | machine, _ | _⟩ := debugger
    · exact equipped
    · exact equipped
    · refine ⟨equipped.configuration, ?_⟩
      have same := entries_pursue hear allowance heard breakpoints machine
      exact same ▸ equipped.proper
    · exact equipped
  step := by
    intro debugger equipped α hear allowance heard
    obtain ⟨other, breakpoints, _ | machine, _ | _⟩ := debugger
    · exact equipped
    · exact equipped
    · exact ⟨equipped.configuration, equipped.proper⟩
    · exact equipped
  add := by
    intro debugger after breakpoint equipped adds
    unfold addBreakpoint at adds
    split at adds
    · contradiction
    · cases adds
      exact ⟨equipped.configuration, equipped.proper.add ‹_›⟩
  remove := by
    intro debugger after address breakpoint equipped removes
    unfold removeBreakpoint at removes
    split at removes
    · contradiction
    · cases removes
      exact ⟨equipped.configuration, equipped.proper.remove ‹_›⟩
  switch := by
    intro debugger equipped address enabled
    exact ⟨equipped.configuration, equipped.proper.switch address enabled⟩

/-- Requests keep the configuration, and the breakpoints in order, by cases on the request. -/
theorem Equipped.respond {configuration : Configuration} {debugger : Debugger}
    (equipped : Equipped configuration debugger) (request : Request)
    : Equipped configuration (debugger.respond request).debugger := by
  have kept := kept_equipped configuration
  cases request with
  | load program input output =>
      simp only [Debugger.respond]
      cases loads : debugger.load program input output with
      | error fault => exact equipped
      | ok loaded =>
          unfold Debugger.load at loads
          split at loads
          · contradiction
          · cases loads
            exact ⟨equipped.configuration, equipped.proper⟩
  | operate operation =>
      cases operation with
      | execute allowance => exact kept.execute equipped Array.push allowance #[]
      | step allowance => exact kept.step equipped Array.push allowance #[]
      | add breakpoint =>
          simp only [Debugger.respond, respondTo]
          cases adds : debugger.addBreakpoint breakpoint with
          | error fault => exact equipped
          | ok after => exact kept.add equipped adds
      | remove address =>
          simp only [Debugger.respond, respondTo]
          cases removes : debugger.removeBreakpoint address with
          | error fault => exact equipped
          | ok result => exact kept.remove equipped removes
      | switch address enabled => exact kept.switch equipped address enabled
  | region | state => exact equipped
  | converse allowance lines =>
      exact kept.converse Array.push equipped false allowance #[] lines

/-- Whatever was asked of a debugger, a new one can be given its breakpoints, by induction on the
requests.
-/
theorem Equipped.after {configuration : Configuration} {debugger : Debugger}
    (equipped : Equipped configuration debugger) (requests : List Request)
    : Equipped configuration (debugger.after requests) := by
  induction requests generalizing debugger with
  | nil => exact equipped
  | cons request later ih => exact ih (equipped.respond request)

/-- Breakpoints in order are added one behind the other, by list induction. -/
theorem foldlM_addBreakpoint (configuration : Configuration) (front : List Breakpoint)
    {rest : List Breakpoint} (proper : Breakpoints.Proper (front ++ rest))
    : rest.foldlM addBreakpoint { configuration, breakpoints := { entries := front } }
      = .ok { configuration, breakpoints := { entries := front ++ rest } } := by
  induction rest generalizing front with
  | nil => simp only [List.foldlM_nil, List.append_nil]; rfl
  | cons breakpoint rest ih =>
      obtain ⟨ordered, nonnegative⟩ := proper
      have last : ∀ entry ∈ front, entry.address < breakpoint.address := by
        intro entry member
        exact (List.pairwise_append.mp ordered).2.2 entry member breakpoint List.mem_cons_self
      have new : Breakpoints.contains { entries := front } breakpoint.address = false := by
        apply Breakpoints.contains_eq_false.mpr
        intro entry member
        exact Int.ne_of_lt (last entry member)
      have inside : ¬ breakpoint.address < 0 :=
        Int.not_lt.mpr (nonnegative breakpoint (by simp))
      have added
          : addBreakpoint { configuration, breakpoints := { entries := front } } breakpoint
            = .ok
                {
                  configuration
                  breakpoints := { entries := front ++ [breakpoint] }
                } := by
        simp [addBreakpoint, Breakpoints.add, inside, new,
          Breakpoints.insertOrdered_eq_append last]
      rw [List.foldlM_cons, added]
      have proper : Breakpoints.Proper ((front ++ [breakpoint]) ++ rest) := by
        rw [List.append_assoc]
        exact ⟨ordered, nonnegative⟩
      have rested := ih (front ++ [breakpoint]) proper
      rw [List.append_assoc] at rested
      exact rested

-----------------------------------------------------------------------------------------
-- Loads
-----------------------------------------------------------------------------------------

/-- A load makes a debugger as good as another one that holds the same breakpoints. -/
structure StartsAfresh (debugger other : Debugger) (program : Program) (input : Input)
    (output : Output) : Prop where
  same : debugger.load program input output = other.load program input output
  answers
    : ∀ {loaded : Debugger} {otherOutput : Output} {later others : List Request},
        debugger.load program input output = .ok loaded
        → output.cleared = otherOutput.cleared
        → later.map Request.cleared = others.map Request.cleared
        → debugger.answers (.load program input output :: later)
          = other.answers (.load program input otherOutput :: others)

/-- A load that is refused leaves everything as it was. -/
structure LeavesNoTrace (debugger : Debugger) (program : Program) (input : Input)
    (output : Output) (fault : Fault) : Prop where
  kind : fault.kind = .unmatchedBracket
  response
    : debugger.respond (.load program input output) = { debugger, ending := .failed fault }
  answers
    : ∀ later,
        debugger.answers (.load program input output :: later)
        = { debugger := debugger.cleared, ending := .failed fault } :: debugger.answers later

/-- Debuggers with the same configuration and breakpoints are the same after a load. -/
theorem startsAfresh {debugger other : Debugger}
    (configuration : debugger.configuration = other.configuration)
    (entries : debugger.breakpoints.entries = other.breakpoints.entries) (program : Program)
    (input : Input) (output : Output)
    : StartsAfresh debugger other program input output := by
  have same := load_congr configuration entries program input output
  refine ⟨same, ?_⟩
  intro loaded otherOutput later others loads outputs alike
  have together
      : debugger.answers (.load program input output :: later)
        = other.answers (.load program input output :: later) := by
    simp only [answers, respond, ← same, loads]
    rfl
  rw [together]
  apply answers_congr rfl
  simp only [List.map_cons, Request.cleared, outputs, alike]

theorem leavesNoTrace {debugger : Debugger} {program : Program} {input : Input}
    {output : Output} {fault : Fault}
    (refused : debugger.load program input output = .error fault)
    (kind : fault.kind = .unmatchedBracket)
    : LeavesNoTrace debugger program input output fault := by
  have response
      : debugger.respond (.load program input output)
        = { debugger, ending := .failed fault } := by
    simp only [respond, refused]
    rfl
  refine ⟨kind, response, ?_⟩
  intro later
  simp only [answers, response]
  rfl

/-- Programs are refused for unmatched brackets, and only when they are compiled. -/
theorem load_or_refused (debugger : Debugger) (program : Program) (input : Input)
    (output : Output)
    : (∃ loaded,
        debugger.load program input output = .ok loaded
        ∧ (debugger.configuration.engine = .virtualMachine → program.Matched))
      ∨ ∃ fault,
          debugger.load program input output = .error fault
          ∧ fault.kind = .unmatchedBracket
          ∧ debugger.configuration.engine = .virtualMachine
          ∧ ¬ program.Matched := by
  unfold load Configuration.machine?
  rcases debugger.configuration.exists_code program with
    ⟨code, accepted, matched⟩ | ⟨fault, refused, reason⟩
  · rw [accepted]
    exact Or.inl ⟨_, rfl, matched⟩
  · rw [refused]
    exact Or.inr ⟨fault, rfl, reason⟩

/-- What a load does to a debugger that was made with a configuration. -/
structure Reloads (configuration : Configuration) (debugger : Debugger) (program : Program)
    (input : Input) (output : Output) : Prop where
  /-- A new debugger can be given the same breakpoints, and the load leads both to the same. -/
  afresh
    : ∃ prepared,
        debugger.breakpoints.entries.foldlM addBreakpoint { configuration } = .ok prepared
        ∧ prepared.breakpoints.entries = debugger.breakpoints.entries
        ∧ StartsAfresh debugger prepared program input output
  accepts
    : (∃ loaded, debugger.load program input output = .ok loaded)
      ↔ (configuration.engine = .virtualMachine → program.Matched)
  refused
    : ∀ fault,
        debugger.load program input output = .error fault
        → LeavesNoTrace debugger program input output fault

/-- A load starts afresh, or leaves no trace. After any requests, a debugger that loads a
program answers all later requests as a new one does that was given the same breakpoints,
whatever has been written before. Only a program that is compiled can be refused, for its
brackets; then everything is as it was, and later requests are answered as if nothing had been
asked.
-/
theorem load_starts_afresh (configuration : Configuration) (history : List Request)
    (program : Program) (input : Input) (output : Output)
    : Reloads configuration (({ configuration } : Debugger).after history) program input
        output := by
  have start : Equipped configuration { configuration } := ⟨rfl, ⟨.nil, by simp⟩⟩
  have equipped := start.after history
  generalize ({ configuration } : Debugger).after history = debugger at equipped
  obtain ⟨same, proper⟩ := equipped
  have verdict := debugger.load_or_refused program input output
  rw [same] at verdict
  constructor
  case afresh =>
    let prepared : Debugger :=
      { configuration, breakpoints := { entries := debugger.breakpoints.entries } }
    have added : debugger.breakpoints.entries.foldlM addBreakpoint _ = .ok prepared :=
      foldlM_addBreakpoint configuration [] proper
    have entries : debugger.breakpoints.entries = prepared.breakpoints.entries := rfl
    exact ⟨prepared, added, rfl, startsAfresh same entries program input output⟩
  case accepts =>
    rcases verdict with ⟨loaded, loads, matched⟩ | ⟨fault, refused, kind, engine, unmatched⟩
    · exact iff_of_true ⟨loaded, loads⟩ matched
    · refine iff_of_false ?_ fun matched => unmatched (matched engine)
      rintro ⟨loaded, loads⟩
      rw [refused] at loads
      contradiction
  case refused =>
    intro fault refused
    rcases verdict with ⟨loaded, loads, _⟩ | ⟨other, also, kind, _⟩
    · rw [refused] at loads
      contradiction
    · obtain rfl := Except.error.inj (refused.symm.trans also)
      exact leavesNoTrace refused kind

/-- A debugger that is suspended at its first byte is interrupted there again after a load. -/
example
    : (({ configuration := { tapeSize := 1 } } : Debugger).after
          [
            .load #[0x2b] .absent .empty,
            .operate (.add { address := 0 }),
            .operate (.execute 9),
            .load #[0x2b] .absent .empty,
            .operate (.execute 9)
          ]).breakpoints.interrupted
      = true := by
  decide

end Debugger

end Brainfuck
