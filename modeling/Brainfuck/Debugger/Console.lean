import Brainfuck.Debugger.Display

/-! The console: a debugger driven by lines of text.
The first letter of a line chooses the command, an empty line repeats the last one, and
the conversation ends with the input, on request, on completion or on a failed step.
-/

namespace Brainfuck.Debugger

/-- What a line asks for, with the words of the line where they matter. -/
inductive ConsoleCommand where
  | step
  | resume
  | quit
  | dump (words : List String)
  | list
  | toggle (words : List String)
  | switch (words : List String)
  | unknown
deriving DecidableEq, Repr

/-- The command of a line without surrounding blanks. -/
def ConsoleCommand.ofLine (line : String) : ConsoleCommand :=
  match line.toList.head? with
  | some 's' => .step
  | some 'c' => .resume
  | some 'q' => .quit
  | some 'm' => .dump (Text.words line)
  | some 'l' => .list
  | some 'b' => .toggle (Text.words line)
  | some 'd' => .switch (Text.words line)
  | _ => .unknown

/-- A conversation so far: the debugger, what its listener has heard and still admits, the
line that an empty one repeats, the text shown, the reports logged, and how the
conversation stands.
-/
structure Conversation (α : Type) where
  debugger : Debugger
  heard : α
  allowance : Nat
  last : String := "s"
  text : String := ""
  log : Array String := #[]
  ending : Ending := .returned

namespace Conversation

variable {α : Type}

/-- Shows a text. -/
def say (conversation : Conversation α) (text : String) : Conversation α :=
  { conversation with text := conversation.text ++ text }

/-- Shows a line. -/
def sayLine (conversation : Conversation α) (line : String) : Conversation α :=
  conversation.say (line ++ "\n")

end Conversation

/-- The line that opens every conversation. -/
def greeting : String :=
  "BF Debugger started. Commands: (s)tep, (c)ontinue, (b)reak <pc>, (d)isable <pc>, "
  ++ "(l)ist, (m)em dump, (q)uit, enter to repeat last"

/-- Invitation to type a command. -/
def prompt : String :=
  styled .blue "(bf-dbg)" ++ " "

/-- Reminder of the commands that take numbers. -/
def usage : String :=
  "Usage: b <pc> | d <pc> | m [addr] [count]"

/-- What an execution reports to the log when it returns. -/
def executionReport (debugger : Debugger) : List String :=
  match debugger.machine? with
  | none => []
  | some machine =>
      if debugger.complete then ["Execution complete: " ++ machine.metrics.describe]
      else ["Interrupted at breakpoint " ++ toString machine.counter]

/-- A number among the words of a command. -/
def numberAt? (words : List String) (index : Nat) : Option (Except Fault Int) :=
  words[index]?.map fun word =>
    match Text.readInteger word with
    | .ok number => .ok number
    | .error cause => .error (.integerFault cause)

/-- A number that a command cannot do without. -/
def numberAt (words : List String) (index : Nat) : Except Fault Int :=
  (numberAt? words index).getD (.error .byteNotFound)

/-- Line about a breakpoint in the list of them, at an address that can be written. -/
def breakpointLine (breakpoint : Breakpoint) : String :=
  "  " ++ Text.zeroPadded 4 breakpoint.address ++ ": "
  ++ (if breakpoint.enabled then "enabled" else "disabled")

/-- Whether a conversation goes on after a command. -/
inductive Turn where
  | goesOn
  | ends
deriving DecidableEq, Repr

/-- Replies to a fault: a refused configuration and a misused command are explained, a
fault of the program ends the conversation, and every other is passed on.
-/
def replyToFault {α : Type} (conversation : Conversation α) (fault : Fault)
    : Turn × Conversation α :=
  let kind := fault.kind
  if kind = .invalidConfiguration then
    (.goesOn, conversation.sayLine (styled .yellow fault.message))
  else if kind.isReported then
    (.ends, conversation.sayLine (styled .red ("Error: " ++ fault.message)))
  else if kind = .badIndex ∨ kind = .badValue then (.goesOn, conversation.sayLine usage)
  else (.ends, { conversation with ending := .failed fault })

/-- Takes over what a step or an execution leaves behind, and replies when it has failed. -/
def replyToRun {α : Type} (conversation : Conversation α) (run : Run Debugger α)
    : Turn × Conversation α :=
  let conversation :=
    {
      conversation with
        debugger := run.state
        heard := run.heard
        allowance := run.allowance
    }
  match run.ending with
  | .returned => (.goesOn, conversation)
  | .failed fault => replyToFault conversation fault
  | .refused => (.ends, { conversation with ending := .refused })

/-- Dumps memory: from the current cell on and 32 cells, unless the words say otherwise. -/
def replyToDump {α : Type} (conversation : Conversation α) (words : List String)
    : Turn × Conversation α :=
  let pointer : Int :=
    match conversation.debugger.machine? with
    | some machine => machine.tape.pointer
    | none => 0
  match (numberAt? words 1).getD (.ok pointer), (numberAt? words 2).getD (.ok 32) with
  | .error fault, _ | _, .error fault => replyToFault conversation fault
  | .ok start, .ok count =>
      let report := conversation.debugger.region start count defaultColumns
      let conversation := conversation.say report.text
      match report.fault? with
      | none => (.goesOn, conversation)
      | some fault => replyToFault conversation fault

/-- Adds the breakpoint at an address, or takes it away when it is there. -/
def replyToToggle {α : Type} (conversation : Conversation α) (words : List String)
    : Turn × Conversation α :=
  match numberAt words 1 with
  | .error fault => replyToFault conversation fault
  | .ok address =>
      if conversation.debugger.breakpoints.contains address then
        match conversation.debugger.removeBreakpoint address with
        | .error fault => replyToFault conversation fault
        | .ok (_, debugger) =>
            (.goesOn,
              { conversation with debugger }.sayLine
                ("Breakpoint removed at " ++ toString address))
      else
        match conversation.debugger.addBreakpoint { address } with
        | .error fault => replyToFault conversation fault
        | .ok debugger =>
            (.goesOn,
              { conversation with debugger }.sayLine
                ("Breakpoint set at " ++ toString address))

/-- Turns the breakpoint at an address off, or on when it is off. -/
def replyToSwitch {α : Type} (conversation : Conversation α) (words : List String)
    : Turn × Conversation α :=
  match numberAt words 1 with
  | .error fault => replyToFault conversation fault
  | .ok address =>
      match conversation.debugger.breakpoints.find? address with
      | none => (.goesOn, conversation.sayLine "No breakpoint there")
      | some breakpoint =>
          let enabled := !breakpoint.enabled
          let debugger := conversation.debugger.switchBreakpoint address enabled
          let report := if enabled then "enabled" else "disabled"
          (.goesOn,
            { conversation with debugger }.sayLine
              ("Breakpoint " ++ report ++ " at " ++ toString address))

/-- Executes up to the next pause, and says where a breakpoint has interrupted. -/
@[specialize] def replyToResume {α : Type} (hear : α → Notice → α)
    (conversation : Conversation α) : Turn × Conversation α :=
  let { debugger, heard, allowance, last, text, log, ending } := conversation
  let run := debugger.execute hear allowance heard
  let log :=
    if run.ending = .returned then log.appendList (executionReport run.state) else log
  let (turn, conversation) :=
    replyToRun
      { debugger := {}, heard := run.heard, allowance, last, text, log, ending }
      run
  match run.ending, conversation.debugger with
  | .returned, { breakpoints, machine? := some machine, .. } =>
      if breakpoints.interrupted then
        (turn, conversation.sayLine ("Breakpoint hit at " ++ toString machine.counter))
      else (turn, conversation)
  | _, _ => (turn, conversation)

/-- Attempts one step. -/
@[specialize] def replyToStep {α : Type} (hear : α → Notice → α)
    (conversation : Conversation α) : Turn × Conversation α :=
  let { debugger, heard, allowance, last, text, log, ending } := conversation
  let run := debugger.step hear allowance heard
  replyToRun { debugger := {}, heard := run.heard, allowance, last, text, log, ending } run

/-- Lists the breakpoints. -/
def replyToList {α : Type} (conversation : Conversation α) : Turn × Conversation α :=
  let entries := conversation.debugger.breakpoints.entries
  let listed := String.join (entries.map fun entry => breakpointLine entry ++ "\n")
  (.goesOn, conversation.say listed)

/-- Carries out a command. -/
@[specialize] def reply {α : Type} (hear : α → Notice → α) (conversation : Conversation α)
    : ConsoleCommand → Turn × Conversation α
  | .step => replyToStep hear conversation
  | .resume => replyToResume hear conversation
  | .quit => (.ends, conversation)
  | .dump words => replyToDump conversation words
  | .list => replyToList conversation
  | .toggle words => replyToToggle conversation words
  | .switch words => replyToSwitch conversation words
  | .unknown => (.goesOn, conversation)

/-- Shows the state and asks for a command, unless the program has completed or there is
nothing to show.
-/
def ask {α : Type} (showsOutput : Bool) (conversation : Conversation α)
    : Turn × Conversation α :=
  if conversation.debugger.complete then (.ends, conversation)
  else
    let report := conversation.debugger.state showsOutput
    let conversation := conversation.say report.text
    match report.fault? with
    | some fault => (.ends, { conversation with ending := .failed fault })
    | none => (.goesOn, conversation.say prompt)

/-- Carries out what a line asks for; an empty line asks for the same as the one before. -/
@[specialize] def takeLine {α : Type} (hear : α → Notice → α)
    (conversation : Conversation α) (line : String) : Turn × Conversation α :=
  let typed := Text.trim line
  let command := if typed.isEmpty then conversation.last else typed
  reply hear { conversation with last := command } (.ofLine command)

/-- Closes a conversation that has not failed. -/
def farewell {α : Type} (showsOutput : Bool) (conversation : Conversation α)
    : Conversation α :=
  match conversation.ending with
  | .returned =>
      let output :=
        match showsOutput, conversation.debugger.machine? with
        | true, some machine => outputLine machine
        | _, _ => ""
      (conversation.say output).sayLine "Execution finished."
  | _ => conversation

/-- Converses over lines, up to the last one or to the one that ends the conversation. A
command is also asked for when no line is left.
-/
@[specialize] def converseOver {α : Type} (hear : α → Notice → α) (showsOutput : Bool)
    : List String → Conversation α → Conversation α
  | [], conversation => farewell showsOutput (ask showsOutput conversation).2
  | line :: rest, conversation =>
      match ask showsOutput conversation with
      | (.ends, conversation) => farewell showsOutput conversation
      | (.goesOn, conversation) =>
          match takeLine hear conversation line with
          | (.ends, conversation) => farewell showsOutput conversation
          | (.goesOn, conversation) => converseOver hear showsOutput rest conversation

/-- A conversation that has just been opened. -/
def Conversation.opened {α : Type} (allowance : Nat) (heard : α) (debugger : Debugger)
    : Conversation α :=
  let conversation : Conversation α := { debugger, heard, allowance }
  conversation.sayLine greeting

/-- A whole conversation with a debugger. -/
@[specialize] def converse {α : Type} (hear : α → Notice → α) (showsOutput : Bool)
    (allowance : Nat) (heard : α) (lines : List String) (debugger : Debugger)
    : Conversation α :=
  converseOver hear showsOutput lines (.opened allowance heard debugger)

end Brainfuck.Debugger
