import Brainfuck.Proofs.Brackets.Matching
import Brainfuck.Proofs.Compilation.Comments
import Brainfuck.Proofs.Engines.Agreement

/-! Comments in interpretation.
Interpreters on two programs that say the same keep pace: one passes its comments while the other
rests, and in front of the same command both do the same. A search from the same bracket ends at
the same bracket or at none, because comments do not matter to what is nested.
-/

namespace Brainfuck

-----------------------------------------------------------------------------------------
-- Commands and the comments between them
-----------------------------------------------------------------------------------------

/-- Commands without the comments between them. -/
def withoutComments (commands : List Command) : List Command :=
  commands.filter fun command => command ≠ .comment

theorem withoutComments_append (front behind : List Command)
    : withoutComments (front ++ behind) = withoutComments front ++ withoutComments behind :=
  List.filter_append front behind

theorem withoutComments_cons_of_visible {command : Command} (visible : command ≠ .comment)
    (rest : List Command)
    : withoutComments (command :: rest) = command :: withoutComments rest :=
  List.filter_cons_of_pos (by simpa using visible)

theorem withoutComments_map_ofByte (bytes : List UInt8)
    : withoutComments (bytes.map Command.ofByte) = (commandBytes bytes).map Command.ofByte :=
  List.filter_map

section SameCommands

variable {commands others front behind : List Command} {command : Command}

/-- In front of the first command there are comments only. -/
theorem exists_first_command (h : withoutComments commands = command :: behind)
    : ∃ comments later,
        commands = comments ++ command :: later
        ∧ withoutComments comments = []
        ∧ withoutComments later = behind := by
  obtain ⟨comments, later, rfl, silent, _, rest⟩ := List.filter_eq_cons_iff.mp h
  exact ⟨comments, later, rfl, List.filter_eq_nil_iff.mpr silent, rest⟩

/-- A command in the middle of others is in the middle of them with their comments, too. -/
theorem exists_command_between (h : withoutComments commands = front ++ command :: behind)
    : ∃ passed left,
        commands = passed ++ command :: left
        ∧ withoutComments passed = front
        ∧ withoutComments left = behind := by
  obtain ⟨first, second, rfl, passes, tail⟩ := List.filter_eq_append_iff.mp h
  obtain ⟨comments, left, rfl, silent, rest⟩ := exists_first_command tail
  refine ⟨first ++ comments, left, by simp, ?_, rest⟩
  rw [withoutComments_append, silent, List.append_nil]
  exact passes

/-- Comments are no brackets. -/
theorem brackets_withoutComments (commands : List Command)
    : brackets (withoutComments commands) = brackets commands := by
  rw [brackets, withoutComments, List.filter_filter, brackets]
  apply List.filter_congr
  intro command _
  cases command <;> rfl

/-- The same commands are nested alike. -/
theorem nested_congr (h : withoutComments commands = withoutComments others)
    : Nested commands ↔ Nested others := by
  rw [← balanced_iff_nested, ← balanced_iff_nested]
  apply balanced_congr
  rw [← brackets_withoutComments, h, brackets_withoutComments]

/-- The same commands come apart at the same command. -/
theorem exists_command_congr
    (h : withoutComments (front ++ command :: behind) = withoutComments others)
    (visible : command ≠ .comment)
    : ∃ otherFront otherBehind,
        others = otherFront ++ command :: otherBehind
        ∧ withoutComments front = withoutComments otherFront
        ∧ withoutComments behind = withoutComments otherBehind := by
  rw [withoutComments_append, withoutComments_cons_of_visible visible] at h
  obtain ⟨otherFront, otherBehind, rfl, same, sameBehind⟩ := exists_command_between h.symm
  exact ⟨otherFront, otherBehind, rfl, same.symm, sameBehind.symm⟩

end SameCommands

namespace Program

/-- A place in each of two programs, with the same commands in front of it and behind it. -/
structure SamePlace (program other : Program) (passed left otherPassed otherLeft : List Command)
    : Prop where
  split : program.commands = passed ++ left
  otherSplit : other.commands = otherPassed ++ otherLeft
  front : withoutComments passed = withoutComments otherPassed
  behind : withoutComments left = withoutComments otherLeft

variable {program other : Program} {passed left otherPassed otherLeft : List Command}
  {command : Command}

/-- Programs that say the same start at the same place. -/
theorem SamePlace.start (same : commandBytes program.toList = commandBytes other.toList)
    : SamePlace program other [] program.commands [] other.commands where
  split := rfl
  otherSplit := rfl
  front := rfl
  behind := by
    rw [commands, commands, withoutComments_map_ofByte, same, withoutComments_map_ofByte]

/-- Behind the same commands there is the same place again. -/
theorem SamePlace.pass (h : SamePlace program other passed left otherPassed otherLeft)
    {next later otherNext otherLater : List Command} (leads : left = next ++ later)
    (otherLeads : otherLeft = otherNext ++ otherLater)
    (same : withoutComments next = withoutComments otherNext)
    : SamePlace program other (passed ++ next) later (otherPassed ++ otherNext) otherLater := by
  obtain ⟨split, otherSplit, front, behind⟩ := h
  subst leads otherLeads
  rw [withoutComments_append, withoutComments_append, same] at behind
  constructor
  · rw [split, List.append_assoc]
  · rw [otherSplit, List.append_assoc]
  · rw [withoutComments_append, withoutComments_append, front, same]
  · exact List.append_cancel_left behind

/-- Behind the same command there is the same place again. -/
theorem SamePlace.pass_command
    (h : SamePlace program other passed (command :: left) otherPassed (command :: otherLeft))
    : SamePlace program other (passed ++ [command]) left (otherPassed ++ [command]) otherLeft :=
  h.pass rfl rfl rfl

/-- Behind an earlier command that is the same the places are the same, too. -/
theorem SamePlace.back {earlier body otherEarlier otherBody : List Command}
    (h
      : SamePlace program other (earlier ++ command :: body) left
          (otherEarlier ++ command :: otherBody) otherLeft)
    (front : withoutComments earlier = withoutComments otherEarlier)
    (same : withoutComments body = withoutComments otherBody)
    : SamePlace program other (earlier ++ [command]) (body ++ left) (otherEarlier ++ [command])
        (otherBody ++ otherLeft) where
  split := by simp [h.split]
  otherSplit := by simp [h.otherSplit]
  front := by rw [withoutComments_append, withoutComments_append, front]
  behind := by rw [withoutComments_append, withoutComments_append, same, h.behind]

theorem SamePlace.found
    (h : SamePlace program other passed (command :: left) otherPassed (command :: otherLeft))
    : program.commands[passed.length]? = some command
      ∧ other.commands[otherPassed.length]? = some command := by
  simp [h.split, h.otherSplit]

/-- A command has the number of commands in front of it. -/
theorem commandAt_of_split (split : program.commands = passed ++ command :: left)
    (visible : command ≠ .comment)
    : program.CommandAt (withoutComments passed).length passed.length := by
  obtain ⟨front, rest, bytes, rfl, tail⟩ := List.map_eq_append_iff.mp split
  obtain ⟨byte, behind, rfl, rfl, _⟩ := List.map_eq_cons_iff.mp tail
  constructor
  · exact ⟨byte, by simp [bytes], visible⟩
  · rw [bytes, List.length_map, List.take_left, withoutComments_map_ofByte, List.length_map]

/-- Commands at the same place are the same command of each program. -/
theorem SamePlace.counterparts
    (h : SamePlace program other passed (command :: left) otherPassed (command :: otherLeft))
    (visible : command ≠ .comment)
    : program.Counterparts other passed.length otherPassed.length := by
  have there := commandAt_of_split h.otherSplit visible
  rw [← h.front] at there
  exact .at (commandAt_of_split h.split visible) there

/-- The search forwards fails for a loop that is not closed. -/
theorem closingOf_of_alone (split : program.commands = passed ++ .beginLoop :: left)
    (alone : ∀ body later, left = body ++ .endLoop :: later → ¬ Nested body)
    : program.closingOf passed.length = .error (.closingNotFound passed.length) := by
  cases search : program.closingOf passed.length with
  | ok closing =>
      have closes := (closingOf_eq_ok_iff (by omega)).mp search
      obtain ⟨front, body, later, whole, starts, inside, _⟩ :=
        (closesFrom_iff (by omega)).mp closes
      have length : (passed ++ [Command.beginLoop]).length = front.length := by
        rw [List.length_append, List.length_singleton]
        omega
      obtain ⟨_, rest⟩ := List.append_inj ((split_behind split).symm.trans whole) length
      exact absurd inside (alone body later rest)
  | error fault =>
      unfold closingOf at search
      split at search <;> cases search
      rfl

/-- The search backwards fails for a loop that was not opened. -/
theorem openingOf_of_alone (split : program.commands = passed ++ .endLoop :: left)
    (alone : ∀ earlier body, passed = earlier ++ .beginLoop :: body → ¬ Nested body)
    : program.openingOf passed.length = .error (.openingNotFound passed.length) := by
  cases search : program.openingOf passed.length with
  | ok opening =>
      have upper : (passed.length : Int) ≤ program.size := by
        rw [← length_commands, split, List.length_append]
        omega
      obtain ⟨earlier, body, behind, whole, stops, inside, _⟩ :=
        (opensTo_iff upper).mp ((openingOf_eq_ok_iff upper).mp search)
      have rest : program.commands = (earlier ++ .beginLoop :: body) ++ behind := by simp [whole]
      obtain ⟨front, _⟩ := List.append_inj (split.symm.trans rest) (Int.ofNat_inj.mp stops)
      exact absurd inside (alone earlier body front)
  | error fault =>
      unfold openingOf at search
      split at search <;> cases search
      rfl

/-- What a search finds in two programs at the same place. -/
inductive SearchAlike (program other : Program) (search otherSearch : Except Fault Nat) : Prop
  | found {passed left otherPassed otherLeft : List Command} {partner otherPartner : Nat}
    (finds : search = .ok partner) (otherFinds : otherSearch = .ok otherPartner)
    (behind : partner + 1 = passed.length) (otherBehind : otherPartner + 1 = otherPassed.length)
    (place : SamePlace program other passed left otherPassed otherLeft)
  | lost {fault otherFault : Fault} (fails : search = .error fault)
    (otherFails : otherSearch = .error otherFault)
    (blame : SameBlame program other fault otherFault)

/-- The searches from the same `[` end alike: a loop is closed in both programs or in neither. -/
theorem SamePlace.closingOf
    (h : SamePlace program other passed (.beginLoop :: left) otherPassed (.beginLoop :: otherLeft))
    : SearchAlike program other (program.closingOf passed.length)
        (other.closingOf otherPassed.length) := by
  have visible : Command.endLoop ≠ .comment := by decide
  have behind := h.pass_command.behind
  by_cases closed : ∃ body later, left = body ++ .endLoop :: later ∧ Nested body
  · obtain ⟨body, later, rfl, inside⟩ := closed
    obtain ⟨otherBody, otherLater, rfl, same, _⟩ := exists_command_congr behind visible
    have place := (h.pass_command.pass rfl rfl same).pass_command
    refine .found (closingOf_partner inside h.split)
      (closingOf_partner ((nested_congr same).mp inside) h.otherSplit) ?_ ?_ place
    all_goals
      simp only [List.length_append, List.length_singleton]
  · refine .lost (closingOf_of_alone h.split ?_) (closingOf_of_alone h.otherSplit ?_)
      (.closingNotFound (h.counterparts (by decide)))
    · intro body later split inside
      exact closed ⟨body, later, split, inside⟩
    · rintro otherBody otherLater rfl otherInside
      obtain ⟨body, later, split, same, _⟩ := exists_command_congr behind.symm visible
      exact closed ⟨body, later, split, (nested_congr same).mp otherInside⟩

/-- The searches from the same `]` end alike: a loop was opened in both programs or in neither. -/
theorem SamePlace.openingOf
    (h : SamePlace program other passed (.endLoop :: left) otherPassed (.endLoop :: otherLeft))
    : SearchAlike program other (program.openingOf passed.length)
        (other.openingOf otherPassed.length) := by
  have visible : Command.beginLoop ≠ .comment := by decide
  by_cases opened : ∃ earlier body, passed = earlier ++ .beginLoop :: body ∧ Nested body
  · obtain ⟨earlier, body, rfl, inside⟩ := opened
    obtain ⟨otherEarlier, otherBody, rfl, front, same⟩ := exists_command_congr h.front visible
    have split := h.split
    have otherSplit := h.otherSplit
    rw [List.append_assoc, List.cons_append] at split otherSplit
    rw [length_at_end, length_at_end]
    refine .found (openingOf_partner inside split)
      (openingOf_partner ((nested_congr same).mp inside) otherSplit) ?_ ?_ (h.back front same)
    all_goals
      simp only [List.length_append, List.length_singleton]
  · refine .lost (openingOf_of_alone h.split ?_) (openingOf_of_alone h.otherSplit ?_)
      (.openingNotFound (h.counterparts (by decide)))
    · intro earlier body split inside
      exact opened ⟨earlier, body, split, inside⟩
    · rintro otherEarlier otherBody rfl otherInside
      obtain ⟨earlier, body, split, _, same⟩ := exists_command_congr h.front.symm visible
      exact opened ⟨earlier, body, split, (nested_congr same).mp otherInside⟩

end Program

-----------------------------------------------------------------------------------------
-- Metrics
-----------------------------------------------------------------------------------------

/-- Metrics that comments alone tell apart. -/
structure Metrics.SameButComments (metrics other : Metrics) : Prop where
  executed : metrics.executed = other.executed
  changes
    : (metrics.counterChanges : Int) - metrics.skipped = other.counterChanges - other.skipped

namespace Metrics.SameButComments

variable {metrics other : Metrics}

theorem refl (metrics : Metrics) : SameButComments metrics metrics :=
  ⟨rfl, rfl⟩

theorem count (h : SameButComments metrics other) (executed skipped changes : Nat)
    : SameButComments (metrics.count executed skipped changes)
        (other.count executed skipped changes) := by
  have same := h.executed
  have changed := h.changes
  constructor <;> simp only [Metrics.count] <;> omega

theorem count_comments (h : SameButComments metrics other) (number otherNumber : Nat)
    : SameButComments (metrics.count 0 number number)
        (other.count 0 otherNumber otherNumber) := by
  have same := h.executed
  have changed := h.changes
  constructor <;> simp only [Metrics.count] <;> omega

end Metrics.SameButComments

-----------------------------------------------------------------------------------------
-- Interpreters side by side
-----------------------------------------------------------------------------------------

namespace Machine

/-- Two interpreters have executed the same commands and hold the same store. Each stands
somewhere among its comments.
-/
inductive Alongside (program other : Program) : Machine → Machine → Prop
  | at {passed left otherPassed otherLeft : List Command}
    (place : program.SamePlace other passed left otherPassed otherLeft)
    {address otherAddress : Nat} (position : address = passed.length)
    (otherPosition : otherAddress = otherPassed.length) {store : Store}
    {metrics otherMetrics : Metrics} (counted : metrics.SameButComments otherMetrics)
    : Alongside program other (placed (.source program) address store metrics)
        (placed (.source other) otherAddress store otherMetrics)

/-- Two interpreters have ended with the same store. Comments alone tell apart what they have
counted.
-/
structure AgreeUpToComments (machine other : Machine) : Prop where
  store : machine.store = other.store
  metrics : machine.metrics.SameButComments other.metrics

/-- Faults of two programs that are the same, or blame the same bracket of each. -/
inductive SameFault (program other : Program) : Fault → Fault → Prop
  | same {fault : Fault} (kind : fault.kind ≠ .unmatchedBracket)
    : SameFault program other fault fault
  | bracket {fault otherFault : Fault} (blame : SameBlame program other fault otherFault)
    : SameFault program other fault otherFault

/-- Two interpreters have failed for the same. -/
structure FailAlike (program other : Program) (machine : Machine) (fault : Fault)
    (otherMachine : Machine) (otherFault : Fault) : Prop where
  machines : AgreeUpToComments machine otherMachine
  faults : SameFault program other fault otherFault

/-- What two interpreters do in front of the same command. -/
inductive StepAlike (program other : Program) (machine otherMachine : Machine) : Prop
  | go {next otherNext : Machine} (step : machine.step = { machine := next })
    (otherStep : otherMachine.step = { machine := otherNext })
    (related : Alongside program other next otherNext)
  | fail {next otherNext : Machine} {fault otherFault : Fault}
    (step : machine.step = { machine := next, fault? := some fault })
    (otherStep : otherMachine.step = { machine := otherNext, fault? := some otherFault })
    (failed : FailAlike program other next fault otherNext otherFault)

section Places

variable {program other : Program} {passed left otherPassed otherLeft : List Command}
  {command : Command} {store : Store} {metrics otherMetrics : Metrics}

/-- Comments are passed one by one, by induction on them. -/
theorem after?_comments {comments : List Command}
    (split : program.commands = passed ++ (comments ++ left))
    (silent : withoutComments comments = []) (store : Store) (metrics : Metrics)
    : (placed (.source program) passed.length store metrics).after? comments.length
      = some
          (placed (.source program) (passed ++ comments).length store
            (metrics.count 0 comments.length comments.length)) := by
  induction comments generalizing passed metrics with
  | nil => simp [after?_zero, Metrics.count]
  | cons first comments ih =>
      obtain ⟨isComment, others⟩ :=
        List.forall_mem_cons.mp (List.filter_eq_nil_iff.mp silent)
      obtain rfl : first = .comment := by simpa using isComment
      have found : program.commands[passed.length]? = some .comment := by simp [split]
      have rest := ih (split_behind split) (List.filter_eq_nil_iff.mpr others)
        (metrics.count 0 1 1)
      rw [List.length_append, List.length_singleton] at rest
      rw [List.length_cons, after?_succ (step_comment found store metrics), rest]
      simp [Metrics.count, Nat.add_assoc, Nat.add_comm 1]

/-- The same action is done in both programs, or fails for the same reason. -/
theorem stepAlike_action
    (h
      : program.SamePlace other passed (command :: left) otherPassed (command :: otherLeft))
    (counted : metrics.SameButComments otherMetrics) {action : Action}
    (does : command.action? = some action)
    : StepAlike program other (placed (.source program) passed.length store metrics)
        (placed (.source other) otherPassed.length store otherMetrics) := by
  obtain ⟨found, otherFound⟩ := h.found
  have step := step_command found does store metrics
  have otherStep := step_command otherFound does store otherMetrics
  cases acted : store.act action with
  | error fault =>
      simp only [acted] at step otherStep
      refine .fail step otherStep ⟨⟨rfl, counted.count 1 0 0⟩, .same ?_⟩
      rcases Store.kind_of_act acted with kind | kind <;> rw [kind] <;> decide
  | ok next =>
      simp only [acted] at step otherStep
      exact .go step otherStep
        (.at h.pass_command (by simp) (by simp) (counted.count 1 0 1))

/-- A loop is entered in both programs, or skipped in both, or neither has an end for it. -/
theorem stepAlike_beginLoop
    (h
      : program.SamePlace other passed (.beginLoop :: left) otherPassed
          (.beginLoop :: otherLeft))
    (counted : metrics.SameButComments otherMetrics)
    : StepAlike program other (placed (.source program) passed.length store metrics)
        (placed (.source other) otherPassed.length store otherMetrics) := by
  obtain ⟨found, otherFound⟩ := h.found
  by_cases zero : store.tape.current = 0
  · cases h.closingOf with
    | found search otherSearch behind otherBehind place =>
        exact .go (step_skip found zero search) (step_skip otherFound zero otherSearch)
          (.at place behind otherBehind (counted.count 1 0 2))
    | lost search otherSearch blame =>
        exact .fail (step_skip_of_lost found zero search)
          (step_skip_of_lost otherFound zero otherSearch)
          ⟨⟨rfl, counted.count 1 0 0⟩, .bracket blame⟩
  · exact .go (step_enter found zero) (step_enter otherFound zero)
      (.at h.pass_command (by simp) (by simp) (counted.count 1 0 1))

/-- A loop is left in both programs, or repeated in both, or neither has a beginning for it. -/
theorem stepAlike_endLoop
    (h
      : program.SamePlace other passed (.endLoop :: left) otherPassed (.endLoop :: otherLeft))
    (counted : metrics.SameButComments otherMetrics)
    : StepAlike program other (placed (.source program) passed.length store metrics)
        (placed (.source other) otherPassed.length store otherMetrics) := by
  obtain ⟨found, otherFound⟩ := h.found
  by_cases zero : store.tape.current = 0
  · exact .go (step_leave found zero) (step_leave otherFound zero)
      (.at h.pass_command (by simp) (by simp) (counted.count 1 0 1))
  · cases h.openingOf with
    | found search otherSearch behind otherBehind place =>
        exact .go (step_repeat found zero search) (step_repeat otherFound zero otherSearch)
          (.at place behind otherBehind (counted.count 1 0 2))
    | lost search otherSearch blame =>
        exact .fail (step_repeat_of_lost found zero search)
          (step_repeat_of_lost otherFound zero otherSearch)
          ⟨⟨rfl, counted.count 1 0 0⟩, .bracket blame⟩

/-- In front of the same command both interpreters do the same, by cases on the command. -/
theorem stepAlike
    (h
      : program.SamePlace other passed (command :: left) otherPassed (command :: otherLeft))
    (visible : command ≠ .comment) (counted : metrics.SameButComments otherMetrics)
    : StepAlike program other (placed (.source program) passed.length store metrics)
        (placed (.source other) otherPassed.length store otherMetrics) := by
  cases command.role with
  | comment => contradiction
  | beginLoop => exact stepAlike_beginLoop h counted
  | endLoop => exact stepAlike_endLoop h counted
  | action action does => exact stepAlike_action h counted does

end Places

variable {program other : Program}

/-- Both interpreters start at the same place. -/
theorem Alongside.start (same : commandBytes program.toList = commandBytes other.toList)
    (store : Store)
    : Alongside program other (placed (.source program) 0 store {})
        (placed (.source other) 0 store {}) :=
  .at (.start same) rfl rfl (.refl {})

/-- An interpreter behind all commands has finished. -/
theorem finishesAs_of_passed {passed : List Command} (whole : program.commands = passed)
    (store : Store) (metrics : Metrics)
    : FinishesAs (placed (.source program) passed.length store metrics)
        (placed (.source program) passed.length store metrics) := by
  apply FinishesAs.of_finished
  apply finished_placed.mpr
  rw [← whole, Program.length_commands]
  exact Nat.le_refl _

/-- From every place that both interpreters have reached the comparison goes on. The left one
passes its comments alone, and the right one those in front of the next command that both have.
-/
theorem Alongside.proceeds {machine otherMachine : Machine}
    (h : Alongside program other machine otherMachine)
    : Pace (Alongside program other) (Ends AgreeUpToComments (FailAlike program other)) bytesLeft
        machine otherMachine := by
  obtain ⟨place, rfl, rfl, counted⟩ := h
  rename_i passed left otherPassed otherLeft store metrics otherMetrics
  cases left with
  | nil =>
      have silent : withoutComments otherLeft = [] := place.behind.symm
      have otherSplit : other.commands = otherPassed ++ (otherLeft ++ []) := by
        rw [place.otherSplit, List.append_nil]
      have passes := after?_comments otherSplit silent store otherMetrics
      have finishes := finishesAs_of_passed place.split store metrics
      rw [List.append_nil] at finishes
      exact .stop (.finish finishes ((finishesAs_of_passed place.otherSplit store _).prepend passes)
        ⟨rfl, counted.count_comments 0 otherLeft.length⟩)
  | cons command left =>
      by_cases comment : command = .comment
      · subst comment
        have found : program.commands[passed.length]? = some .comment := by simp [place.split]
        have inside := (List.getElem?_eq_some_iff.mp found).1
        rw [Program.length_commands] at inside
        have next
            : program.SamePlace other (passed ++ [.comment]) left (otherPassed ++ [])
                otherLeft :=
          place.pass rfl rfl rfl
        refine .left (after?_succ (step_comment found store metrics) 0) ?_
          (.at next (by simp) (by simp) (counted.count_comments 1 0))
        simp only [bytesLeft, length, placed, Code.length, Int.toNat_natCast]
        omega
      · have first : withoutComments otherLeft = command :: withoutComments left := by
          rw [← place.behind, withoutComments_cons_of_visible comment]
        obtain ⟨comments, later, rfl, silent, _⟩ := exists_first_command first
        have passes := after?_comments place.otherSplit silent store otherMetrics
        have meets
            : program.SamePlace other (passed ++ []) (command :: left) (otherPassed ++ comments)
                (command :: later) :=
          place.pass rfl rfl silent.symm
        rw [List.append_nil] at meets
        obtain ⟨found, otherFound⟩ := meets.found
        cases stepAlike meets comment (counted.count_comments 0 comments.length) with
        | go step otherStep related =>
            exact .both (after?_succ step 0) (after?_snoc passes otherStep) related
        | fail step otherStep failed =>
            exact .stop (.fail (.of_step (unfinished_source found) step)
              ((FailsAs.of_step (unfinished_source otherFound) otherStep).prepend passes) failed)

end Machine

namespace Program

open Machine

/-- What comments leave unchanged when they alone tell two programs apart. -/
structure UnchangedByComments (program other : Program) : Prop where
  /-- Interpreters on both finish, fail or never end alike, whatever they start with. -/
  interpreted
    : ∀ tape input output,
        SameCourse { code := .source program, tape, input, output }
          { code := .source other, tape, input, output } AgreeUpToComments
          (FailAlike program other)
  /-- Without folding both compile to the same instructions, or neither compiles. -/
  compiled : SameVerdict program other Eq (program.compile 0) (other.compile 0)

/-- Comments change nothing. Programs with the same commands in the same order, whether their
brackets match or not, are interpreted alike and compiled alike. What fails for a bracket fails
for the bracket of the same number.
-/
theorem comments_change_nothing {program other : Program}
    (same : commandBytes program.toList = commandBytes other.toList)
    : UnchangedByComments program other where
  interpreted tape input output :=
    sameCourse_of_pace Alongside.proceeds (.start same { tape, input, output })
  compiled := compile_of_sameCommands same

/-- A loop that is not closed, behind a comment and around one. -/
theorem comments_change_nothing_around_loop
    : commandBytes [0x61, 0x5b, 0x62] = commandBytes [0x5b]
      ∧ UnchangedByComments #[0x61, 0x5b, 0x62] #[0x5b]
      ∧ FailsAs
          {
            code := .source #[0x61, 0x5b, 0x62]
            tape := .blank 1 .checked
            output := .empty
          }
          {
            code := .source #[0x61, 0x5b, 0x62]
            counter := 1
            tape := .blank 1 .checked
            output := .empty
            metrics := { executed := 1, skipped := 1, counterChanges := 1 }
          }
          (.closingNotFound 1) :=
  ⟨by decide, comments_change_nothing (by decide), 2, rfl, rfl⟩

end Program

end Brainfuck
