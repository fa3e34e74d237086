import Brainfuck.Proofs.Debugging.Directives
import Brainfuck.Proofs.Text.Numerals

/-! Replies of the console.
A command comes to a directive or to none, and its reply is what the debugger makes of that
directive, together with a text. The reminder of the commands that take numbers is the only text
with a bar in it, so it is told apart from all others.
-/

namespace Brainfuck

-----------------------------------------------------------------------------------------
-- Texts without a bar
-----------------------------------------------------------------------------------------

/-- A text without a vertical bar. -/
def Barless (text : String) : Prop :=
  '|' ∉ text.toList

instance (text : String) : Decidable (Barless text) :=
  inferInstanceAs (Decidable (¬ _))

theorem barless_append {front back : String}
    : Barless (front ++ back) ↔ Barless front ∧ Barless back := by
  unfold Barless
  rw [String.toList_append, List.mem_append, not_or]

theorem barless_join {texts : List String} (h : ∀ text ∈ texts, Barless text)
    : Barless (String.join texts) := by
  unfold Barless
  rw [String.toList_join, List.mem_flatMap]
  rintro ⟨text, member, bar⟩
  exact h text member bar

theorem barless_intercalate {separator : String} (plain : Barless separator)
    {texts : List String} (h : ∀ text ∈ texts, Barless text)
    : Barless (separator.intercalate texts) := by
  induction texts with
  | nil => simp [Barless]
  | cons first later ih =>
      obtain ⟨here, rest⟩ := List.forall_mem_cons.mp h
      cases later with
      | nil => simpa using here
      | cons second others =>
          rw [String.intercalate_cons_cons, barless_append, barless_append]
          exact ⟨⟨here, plain⟩, ih rest⟩

theorem barless_replicate {char : Char} (other : char ≠ '|') (count : Nat)
    : Barless (String.ofList (List.replicate count char)) := by
  unfold Barless
  rw [String.toList_ofList]
  exact fun bar => other (List.eq_of_mem_replicate bar).symm

/-- Numbers are written by digits alone. -/
theorem barless_natural (number : Nat) : Barless (toString number) := by
  unfold Barless
  rw [Nat.toString_eq_repr, Nat.toList_repr]
  intro bar
  have digit := Nat.isDigit_of_mem_toDigits (by decide) (by decide) bar
  contradiction

theorem barless_integer (number : Int) : Barless (toString number) := by
  cases number with
  | ofNat number => exact barless_natural number
  | negSucc number => exact barless_append.mpr ⟨by decide, barless_natural number.succ⟩

theorem Text.barless_zeroPadded (width : Nat) (value : Int)
    : Barless (Text.zeroPadded width value) := by
  have sign : Barless (if value < 0 then "-" else "") := by split <;> decide
  simp only [Text.zeroPadded, barless_append]
  exact ⟨⟨sign, barless_replicate (by decide) _⟩, barless_natural _⟩

theorem Text.barless_paddedInteger (width : Nat) (value : Int)
    : Barless (Text.paddedInteger width value) :=
  barless_append.mpr ⟨barless_replicate (by decide) _, barless_integer value⟩

theorem Breakpoint.barless_describe (breakpoint : Breakpoint) : Barless breakpoint.describe := by
  have switched : Barless (if breakpoint.enabled then "True" else "False") := by
    split <;> simp [Barless]
  unfold describe
  simp only [barless_append, barless_integer]
  refine ⟨⟨⟨⟨?_, trivial⟩, ?_⟩, switched⟩, ?_⟩ <;> simp [Barless]

/-- Faults of a program are explained by numbers. -/
theorem Fault.barless_message {fault : Fault} (kind : fault.kind.OfProgram)
    : Barless fault.message := by
  cases fault with
  | pointerOutOfRange | cellOverflow | unmatchedOpening | unmatchedClosing | closingNotFound
  | openingNotFound | alreadyCompleted | nothingLoaded =>
      unfold message
      simp only [barless_append, barless_integer, barless_natural]
      and_intros <;> simp [Barless]
  | _ => rcases kind with kind | kind | kind | kind <;> cases kind

namespace Debugger

theorem barless_styled (style : Style) {text : String}
    : Barless (styled style text) ↔ Barless text := by
  have escape (number : Nat) : Barless (escapeSequence number) := by
    unfold escapeSequence
    simp only [barless_append, barless_natural]
    and_intros <;> simp [Barless]
  unfold styled
  simp only [barless_append, escape, and_true, true_and]

theorem barless_breakpointLine (breakpoint : Breakpoint)
    : Barless (breakpointLine breakpoint) := by
  have switched : Barless (if breakpoint.enabled then "enabled" else "disabled") := by
    split <;> simp [Barless]
  unfold breakpointLine
  simp only [barless_append, Text.barless_zeroPadded]
  refine ⟨⟨⟨?_, trivial⟩, ?_⟩, switched⟩ <;> simp [Barless]

theorem barless_dumpRow (tape : Tape) (row : DumpRow) : Barless (row.describe tape) := by
  have cells
      : ∀ text ∈
            row.addresses.map fun address : Int =>
              if address = tape.pointer then styled .reversed (cellText tape address)
              else cellText tape address,
          Barless text := by
    intro text member
    obtain ⟨address, _, rfl⟩ := List.mem_map.mp member
    have plain : Barless (cellText tape address) := Text.barless_paddedInteger 4 _
    split
    · exact (barless_styled .reversed).mpr plain
    · exact plain
  have blank : Barless " " := by decide
  have separated := barless_intercalate blank cells
  unfold DumpRow.describe
  simp only [barless_append, Text.barless_zeroPadded]
  refine ⟨⟨⟨⟨?_, trivial⟩, ?_⟩, separated⟩, ?_⟩ <;> simp [Barless]

/-- A memory dump shows numbers alone. -/
theorem barless_regionOf (tape : Tape) (start count columns : Int)
    : Barless (regionOf tape start count columns).text := by
  have heading
      : Barless
          (styled .cyan ("[Memory (Start: " ++ toString (dumpStart start) ++ ")]") ++ "\n") := by
    simp only [barless_append, barless_integer, barless_styled]
    and_intros <;> simp [Barless]
  have rows
      : ∀ text ∈
            (dumpRows (dumpStart start) (dumpBound tape start count) columns).map
              (DumpRow.describe tape),
          Barless text := by
    intro text member
    obtain ⟨row, _, rfl⟩ := List.mem_map.mp member
    exact barless_dumpRow tape row
  unfold regionOf
  split
  · exact heading
  · exact barless_append.mpr ⟨heading, barless_join rows⟩

-----------------------------------------------------------------------------------------
-- Commands
-----------------------------------------------------------------------------------------

/-- A command begins with a letter, which decides what it is. -/
def Begins (letter : Char) (command : String) : Prop :=
  command.toList.head? = some letter

/-- The number that a word of a command denotes, if there is that word and it denotes one. -/
def number? (command : String) (index : Nat) : Option Int :=
  (Text.words command)[index]?.bind fun word => (Text.readInteger word).toOption

/-- Numbers in commands have been read, so they can be written. -/
theorem isShort_of_number? {command : String} {index : Nat} {number : Int}
    (h : number? command index = some number)
    : Text.IsShort number := by
  obtain ⟨word, _, read⟩ := Option.bind_eq_some_iff.mp h
  cases result : Text.readInteger word with
  | error cause => simp [result, Except.toOption] at read
  | ok value =>
      simp only [result, Except.toOption, Option.some.injEq] at read
      exact read ▸ Text.isShort_of_readInteger result

/-- What a command directs the debugger to do, if anything. -/
def directive? (debugger : Debugger) (command : String) : Option Directive :=
  match command.toList.head? with
  | some 's' => some .step
  | some 'c' => some .resume
  | some 'b' =>
      (number? command 1).bind fun address =>
        if debugger.breakpoints.contains address then some (.remove address)
        else if 0 ≤ address then some (.add address)
        else none
  | some 'd' =>
      (number? command 1).bind fun address =>
        (debugger.breakpoints.find? address).map fun breakpoint =>
          .switch address !breakpoint.enabled
  | _ => none

/-- A command has a word in a place, but it denotes no number. -/
def Malformed (command : String) (index : Nat) : Prop :=
  (Text.words command)[index]? ≠ none ∧ number? command index = none

/-- A command about a breakpoint whose number is missing or malformed, or a dump one of whose
numbers is malformed.
-/
def Misused (command : String) : Prop :=
  (Begins 'b' command ∨ Begins 'd' command) ∧ number? command 1 = none
  ∨ Begins 'm' command ∧ (Malformed command 1 ∨ Malformed command 2)

/-- What can stand where a command expects a number. -/
inductive Operand (command : String) (index : Nat) : Prop
  | missing (absent : (Text.words command)[index]? = none)
    (unread : number? command index = none)
    (reads : numberAt? (Text.words command) index = none)
  | number {value : Int} (read : number? command index = some value)
    (reads : numberAt? (Text.words command) index = some (.ok value))
  | malformed {fault : Fault} (malformed : Malformed command index) (kind : fault.kind = .badValue)
    (reads : numberAt? (Text.words command) index = some (.error fault))

theorem operand (command : String) (index : Nat) : Operand command index := by
  cases word : (Text.words command)[index]? with
  | none => exact .missing word (by simp [number?, word]) (by simp [numberAt?, word])
  | some text =>
      have present : (Text.words command)[index]? ≠ none := by simp [word]
      cases read : Text.readInteger text with
      | error cause =>
          have unread : number? command index = none := by
            simp [number?, word, read, Except.toOption]
          have kind : (Fault.integerFault cause).kind = .badValue := rfl
          exact .malformed ⟨present, unread⟩ kind (by simp [numberAt?, word, read])
      | ok value =>
          have reads : number? command index = some value := by
            simp [number?, word, read, Except.toOption]
          exact .number reads (by simp [numberAt?, word, read])

/-- A number that a command cannot do without is there, or the fault is one of misuse. -/
theorem numberAt_eq (command : String)
    : (∃ address,
        number? command 1 = some address
        ∧ numberAt (Text.words command) 1 = .ok address)
      ∨ number? command 1 = none
        ∧ ∃ fault,
            numberAt (Text.words command) 1 = .error fault
            ∧ (fault.kind = .badIndex ∨ fault.kind = .badValue) := by
  cases operand command 1 with
  | missing absent unread reads =>
      exact Or.inr ⟨unread, .byteNotFound, by simp [numberAt, reads], Or.inl rfl⟩
  | number read reads => exact Or.inl ⟨_, read, by simp [numberAt, reads]⟩
  | malformed malformed kind reads =>
      exact Or.inr ⟨malformed.2, _, by simp [numberAt, reads], Or.inr kind⟩

/-- A number that has another one for its default is that or the one typed, unless that is
malformed.
-/
theorem numberAt?_eq (command : String) (index : Nat) (default : Int)
    : (¬ Malformed command index
        ∧ ∃ value, (numberAt? (Text.words command) index).getD (.ok default) = .ok value)
      ∨ Malformed command index
        ∧ ∃ fault,
            (numberAt? (Text.words command) index).getD (.ok default) = .error fault
            ∧ fault.kind = .badValue := by
  cases operand command index with
  | missing absent unread reads =>
      exact Or.inl ⟨fun malformed => malformed.1 absent, default, by simp [reads]⟩
  | @number value read reads =>
      exact Or.inl ⟨fun malformed => by simp [malformed.2] at read, value, by simp [reads]⟩
  | malformed malformed kind reads =>
      exact Or.inr ⟨malformed, _, by simp [reads], kind⟩

-----------------------------------------------------------------------------------------
-- Replies
-----------------------------------------------------------------------------------------

section Replies

variable {α : Type} (hear : α → Notice → α) (conversation : Conversation α)

/-- What the debugger of a conversation makes of a directive. -/
def Conversation.undertaking (directive : Directive) : Run Debugger α :=
  conversation.debugger.undertake hear conversation.allowance conversation.heard directive

/-- A conversation behind an undertaking, with a text and a log. -/
def Conversation.behindRun (conversation : Conversation α) (run : Run Debugger α)
    (said : String) (log : Array String)
    : Conversation α where
  debugger := run.state
  heard := run.heard
  allowance := run.allowance
  last := conversation.last
  text := conversation.text ++ said
  log
  ending := if run.ending = .refused then .refused else conversation.ending

/-- What the reply to a command can be. A directive is undertaken, and the conversation goes on when
it returns; all other commands change nothing but the text.
-/
inductive Replied (command : String) : Turn × Conversation α → Prop
  | quits (quits : Begins 'q' command) : Replied command (.ends, conversation)
  | explained (misused : Misused command) (none : conversation.debugger.directive? command = none)
    : Replied command (.goesOn, conversation.sayLine usage)
  | rests {said : String} (used : ¬ Misused command) (stays : ¬ Begins 'q' command)
    (none : conversation.debugger.directive? command = none) (barless : Barless said)
    : Replied command (.goesOn, conversation.say said)
  | undertakes {directive : Directive} {said : String} {log : Array String} {turn : Turn}
    (used : ¬ Misused command) (stays : ¬ Begins 'q' command)
    (asks : conversation.debugger.directive? command = some directive)
    (goesOn : turn = .goesOn ↔ (conversation.undertaking hear directive).ending = .returned)
    (barless : Barless said)
    : Replied command
        (turn, conversation.behindRun (conversation.undertaking hear directive) said log)

variable {conversation}

theorem replyToFault_of_misuse {fault : Fault}
    (kind : fault.kind = .badIndex ∨ fault.kind = .badValue)
    : replyToFault conversation fault = (.goesOn, conversation.sayLine usage) := by
  rcases kind with kind | kind <;> simp [replyToFault, kind, FaultKind.isReported]

theorem replyToFault_ofProgram {fault : Fault} (kind : fault.kind.OfProgram)
    : replyToFault conversation fault
      = (.ends, conversation.sayLine (styled .red ("Error: " ++ fault.message))) := by
  rcases kind with kind | kind | kind | kind <;> simp [replyToFault, kind, FaultKind.isReported]

/-- A step or an execution is taken over, and explained when it fails for the program. -/
theorem exists_replyToRun (conversation : Conversation α) {run : Run Debugger α}
    (ofProgram : ∀ fault, run.ending = .failed fault → fault.kind.OfProgram)
    : ∃ turn said,
        replyToRun conversation run = (turn, conversation.behindRun run said conversation.log)
        ∧ (turn = .goesOn ↔ run.ending = .returned)
        ∧ Barless said := by
  obtain ⟨state, heard, allowance, ending⟩ := run
  cases ending with
  | returned =>
      refine ⟨.goesOn, "", ?_, iff_of_true rfl rfl, by decide⟩
      simp [replyToRun, Conversation.behindRun]
  | failed fault =>
      have kind := ofProgram fault rfl
      refine ⟨.ends, styled .red ("Error: " ++ fault.message) ++ "\n", ?_,
        iff_of_false nofun nofun, ?_⟩
      · simp only [replyToRun, replyToFault_ofProgram kind]
        rfl
      · simp only [barless_append, barless_styled]
        exact ⟨⟨by decide, Fault.barless_message kind⟩, by decide⟩
  | refused =>
      refine ⟨.ends, "", ?_, iff_of_false nofun nofun, by decide⟩
      simp [replyToRun, Conversation.behindRun]

theorem exists_replyToStep (sound : conversation.debugger.Sound)
    : ∃ turn said log,
        replyToStep hear conversation
          = (turn, conversation.behindRun (conversation.undertaking hear .step) said log)
        ∧ (turn = .goesOn ↔ (conversation.undertaking hear .step).ending = .returned)
        ∧ Barless said := by
  obtain ⟨debugger, heard, allowance, last, text, log, ending⟩ := conversation
  have ofProgram := (sound.step hear allowance heard).2
  simp only [replyToStep, Conversation.undertaking, undertake]
  generalize debugger.step hear allowance heard = run at ofProgram ⊢
  obtain ⟨turn, said, replied, goesOn, barless⟩ :=
    exists_replyToRun
      { debugger := {}, heard := run.heard, allowance, last, text, log, ending } ofProgram
  exact ⟨turn, said, log, replied, goesOn, barless⟩

theorem exists_replyToResume (sound : conversation.debugger.Sound)
    : ∃ turn said log,
        replyToResume hear conversation
          = (turn, conversation.behindRun (conversation.undertaking hear .resume) said log)
        ∧ (turn = .goesOn ↔ (conversation.undertaking hear .resume).ending = .returned)
        ∧ Barless said := by
  obtain ⟨debugger, heard, allowance, last, text, log, ending⟩ := conversation
  have ofProgram := (sound.execute hear allowance heard).2
  simp only [replyToResume, Conversation.undertaking, undertake]
  generalize debugger.execute hear allowance heard = run at ofProgram ⊢
  generalize (if run.ending = .returned then log.appendList (executionReport run.state) else log)
    = log
  obtain ⟨turn, said, replied, goesOn, barless⟩ :=
    exists_replyToRun
      { debugger := {}, heard := run.heard, allowance, last, text, log, ending } ofProgram
  simp only [replied]
  obtain ⟨⟨configuration, ⟨entries, interrupted⟩, machine?, complete⟩, later, left, ends⟩ := run
  cases ends with
  | failed fault => exact ⟨turn, said, log, rfl, goesOn, barless⟩
  | refused => exact ⟨turn, said, log, rfl, goesOn, barless⟩
  | returned =>
      cases machine? with
      | none => exact ⟨turn, said, log, rfl, goesOn, barless⟩
      | some machine =>
          cases interrupted with
          | false => exact ⟨turn, said, log, rfl, goesOn, barless⟩
          | true =>
              refine ⟨turn, said ++ ("Breakpoint hit at " ++ toString machine.counter ++ "\n"), log,
                ?_, goesOn, ?_⟩
              · simp only [Conversation.behindRun, Conversation.sayLine, Conversation.say,
                  String.append_assoc, if_true]
              · simp only [barless_append]
                exact ⟨barless, ⟨by decide, barless_integer _⟩, by decide⟩

/-- Rows can be made of the columns that nobody has asked to change. -/
theorem region_of_loaded {debugger : Debugger} (loaded : debugger.machine? ≠ none)
    (start count : Int)
    : (debugger.region start count defaultColumns).fault? = none
      ∧ Barless (debugger.region start count defaultColumns).text := by
  obtain ⟨machine, holds⟩ := Option.ne_none_iff_exists'.mp loaded
  simp only [region, loaded?, holds]
  refine ⟨?_, barless_regionOf machine.tape start count defaultColumns⟩
  rw [regionOf, if_neg (by decide)]

/-- A dump shows memory, or the reminder when one of its numbers is malformed. -/
theorem replied_dump (loaded : conversation.debugger.machine? ≠ none) {command : String}
    (dumps : Begins 'm' command)
    : Replied hear conversation command
        (replyToDump conversation (Text.words command)) := by
  have letter : command.toList.head? = some 'm' := dumps
  have misused_iff : Misused command ↔ Malformed command 1 ∨ Malformed command 2 := by
    simp [Misused, Begins, letter]
  have none : conversation.debugger.directive? command = none := by simp [directive?, letter]
  have stays : ¬ Begins 'q' command := by simp [Begins, letter]
  obtain ⟨machine, holds⟩ := Option.ne_none_iff_exists'.mp loaded
  simp only [replyToDump, holds]
  rcases numberAt?_eq command 1 machine.tape.pointer with
    ⟨first, start, reads⟩ | ⟨malformed, fault, fails, kind⟩
  · rcases numberAt?_eq command 2 32 with
      ⟨second, count, also⟩ | ⟨malformed, fault, fails, kind⟩
    · obtain ⟨shown, barless⟩ := region_of_loaded loaded start count
      have used : ¬ Misused command := fun misused => (misused_iff.mp misused).elim first second
      simp only [reads, also, shown]
      exact .rests used stays none barless
    · simp only [reads, fails, replyToFault_of_misuse (Or.inr kind)]
      exact .explained (misused_iff.mpr (Or.inr malformed)) none
  · simp only [fails, replyToFault_of_misuse (Or.inr kind)]
    exact .explained (misused_iff.mpr (Or.inl malformed)) none

theorem exists_removeBreakpoint {debugger : Debugger} {address : Int}
    (present : debugger.breakpoints.contains address = true)
    : ∃ breakpoint after, debugger.removeBreakpoint address = .ok (breakpoint, after) := by
  obtain ⟨breakpoint, found⟩ := Option.isSome_iff_exists.mp present
  simp only [removeBreakpoint, Breakpoints.remove, found]
  exact ⟨_, _, rfl⟩

theorem exists_addBreakpoint {debugger : Debugger} {address : Int} (inside : 0 ≤ address)
    (absent : debugger.breakpoints.contains address = false)
    : ∃ after, debugger.addBreakpoint { address } = .ok after := by
  simp only [addBreakpoint, Breakpoints.add, absent, Int.not_lt.mpr inside, Bool.false_eq_true,
    if_false]
  exact ⟨_, rfl⟩

/-- A change that succeeds is undertaken at once. -/
theorem replied_change {command : String} {directive : Directive} {said : String}
    (used : ¬ Misused command) (stays : ¬ Begins 'q' command)
    (asks : conversation.debugger.directive? command = some directive) {after : Debugger}
    (changes
      : conversation.undertaking hear directive
        = {
            state := after
            heard := conversation.heard
            allowance := conversation.allowance
          })
    (barless : Barless said)
    : Replied hear conversation command
        (.goesOn, { conversation with debugger := after }.say said) := by
  have reply
      : Replied hear conversation command
          (.goesOn,
            conversation.behindRun (conversation.undertaking hear directive) said
              conversation.log) :=
    .undertakes used stays asks (iff_of_true rfl (by rw [changes])) barless
  rw [changes] at reply
  exact reply

/-- A breakpoint is added or taken away by its number, unless that is missing or refused. -/
theorem replied_toggle {command : String} (toggles : Begins 'b' command)
    : Replied hear conversation command
        (replyToToggle conversation (Text.words command)) := by
  have letter : command.toList.head? = some 'b' := toggles
  have misused_iff : Misused command ↔ number? command 1 = none := by
    simp [Misused, Begins, letter]
  have stays : ¬ Begins 'q' command := by simp [Begins, letter]
  unfold replyToToggle
  rcases numberAt_eq command with ⟨address, read, reads⟩ | ⟨unread, fault, fails, kind⟩
  · have used : ¬ Misused command := by simp [misused_iff, read]
    simp only [reads]
    cases present : conversation.debugger.breakpoints.contains address with
    | true =>
        obtain ⟨breakpoint, after, removes⟩ := exists_removeBreakpoint present
        have asks : conversation.debugger.directive? command = some (.remove address) := by
          simp [directive?, letter, read, present]
        have said : Barless ("Breakpoint removed at " ++ toString address ++ "\n") := by
          simp only [barless_append, barless_integer]
          and_intros <;> simp [Barless]
        simp only [removes, if_true]
        exact replied_change hear used stays asks (undertake_remove removes) said
    | false =>
        simp only [Bool.false_eq_true, if_false]
        by_cases inside : 0 ≤ address
        · obtain ⟨after, adds⟩ := exists_addBreakpoint inside present
          have asks : conversation.debugger.directive? command = some (.add address) := by
            simp [directive?, letter, read, present, inside]
          have said : Barless ("Breakpoint set at " ++ toString address ++ "\n") := by
            simp only [barless_append, barless_integer]
            and_intros <;> simp [Barless]
          simp only [adds]
          exact replied_change hear used stays asks (undertake_add adds) said
        · have none : conversation.debugger.directive? command = none := by
            simp [directive?, letter, read, present, inside]
          have refused
              : conversation.debugger.addBreakpoint { address }
                = .error (.negativeBreakpoint { address }) := by
            have writable : (Fault.negativeBreakpoint { address }).IsWritable :=
              (Fault.isWritable_iff_of_numbers rfl).mpr (isShort_of_number? read)
            simp only [addBreakpoint, Breakpoints.add, Int.not_le.mp inside, if_true,
              Fault.raised_of_isWritable writable]
          have said
              : Barless
                  (styled .yellow (Fault.negativeBreakpoint { address }).message ++ "\n") := by
            unfold Fault.message
            simp only [barless_append, barless_styled, Breakpoint.barless_describe]
            and_intros <;> simp [Barless]
          simp only [refused]
          exact .rests used stays none said
  · simp only [fails, replyToFault_of_misuse kind]
    have none : conversation.debugger.directive? command = none := by
      simp [directive?, letter, unread]
    exact .explained (misused_iff.mpr unread) none

theorem replied_switch {command : String} (switches : Begins 'd' command)
    : Replied hear conversation command
        (replyToSwitch conversation (Text.words command)) := by
  have letter : command.toList.head? = some 'd' := switches
  have misused_iff : Misused command ↔ number? command 1 = none := by
    simp [Misused, Begins, letter]
  have stays : ¬ Begins 'q' command := by simp [Begins, letter]
  unfold replyToSwitch
  rcases numberAt_eq command with ⟨address, read, reads⟩ | ⟨unread, fault, fails, kind⟩
  · have used : ¬ Misused command := by simp [misused_iff, read]
    simp only [reads]
    cases found : conversation.debugger.breakpoints.find? address with
    | none =>
        have none : conversation.debugger.directive? command = none := by
          simp [directive?, letter, read, found]
        have said : Barless ("No breakpoint there" ++ "\n") := by
          simp only [barless_append]
          and_intros <;> simp [Barless]
        exact .rests used stays none said
    | some breakpoint =>
        have asks
            : conversation.debugger.directive? command
              = some (.switch address !breakpoint.enabled) := by
          simp [directive?, letter, read, found]
        have report : Barless (if !breakpoint.enabled then "enabled" else "disabled") := by
          split <;> simp [Barless]
        refine replied_change hear used stays asks rfl ?_
        simp only [barless_append, barless_integer]
        refine ⟨⟨⟨⟨?_, report⟩, ?_⟩, trivial⟩, ?_⟩ <;> simp [Barless]
  · simp only [fails, replyToFault_of_misuse kind]
    have none : conversation.debugger.directive? command = none := by
      simp [directive?, letter, unread]
    exact .explained (misused_iff.mpr unread) none

/-- Every command is replied to as its directive says, by cases on its first letter. -/
theorem replied (sound : conversation.debugger.Sound)
    (loaded : conversation.debugger.machine? ≠ none) (command : String)
    : Replied hear conversation command (reply hear conversation (.ofLine command)) := by
  unfold ConsoleCommand.ofLine
  split
  case h_1 letter =>
    have asks : conversation.debugger.directive? command = some .step := by
      simp [directive?, letter]
    obtain ⟨turn, said, log, replied, goesOn, barless⟩ := exists_replyToStep hear sound
    simp only [reply, replied]
    exact .undertakes (by simp [Misused, Begins, letter]) (by simp [Begins, letter]) asks goesOn
      barless
  case h_2 letter =>
    have asks : conversation.debugger.directive? command = some .resume := by
      simp [directive?, letter]
    obtain ⟨turn, said, log, replied, goesOn, barless⟩ := exists_replyToResume hear sound
    simp only [reply, replied]
    exact .undertakes (by simp [Misused, Begins, letter]) (by simp [Begins, letter]) asks goesOn
      barless
  case h_3 letter => exact .quits letter
  case h_4 letter => exact replied_dump hear loaded letter
  case h_5 letter =>
    have listed
        : Barless
            (String.join
              (conversation.debugger.breakpoints.entries.map fun entry =>
                breakpointLine entry ++ "\n")) := by
      apply barless_join
      intro text member
      obtain ⟨entry, _, rfl⟩ := List.mem_map.mp member
      exact barless_append.mpr ⟨barless_breakpointLine entry, by decide⟩
    exact .rests (by simp [Misused, Begins, letter]) (by simp [Begins, letter])
      (by simp [directive?, letter]) listed
  case h_6 letter => exact replied_toggle hear letter
  case h_7 letter => exact replied_switch hear letter
  case h_8 step resume quit dump list toggle switch =>
    have none : conversation.debugger.directive? command = none := by
      unfold directive?
      split
      · exact absurd ‹_› step
      · exact absurd ‹_› resume
      · exact absurd ‹_› toggle
      · exact absurd ‹_› switch
      · rfl
    have used : ¬ Misused command := by
      rintro (⟨toggles | switches, _⟩ | ⟨dumps, _⟩)
      · exact toggle toggles
      · exact switch switches
      · exact dump dumps
    have same : conversation.say "" = conversation := by
      simp [Conversation.say]
    have rests : Replied hear conversation command (.goesOn, conversation.say "") :=
      .rests used quit none (by decide)
    rwa [same] at rests

end Replies

end Debugger

end Brainfuck
