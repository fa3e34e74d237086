import Brainfuck.Debugger.Console
import Brainfuck.Proofs.Execution.Writing
import Mathlib.Tactic.SplitIfs

/-! Debuggers and conversations behind what was written before.
Nothing that a debugger does depends on what its machine has written, and nothing that it shows
unless it is asked to show the output. A conversation comes to the operations that its lines
ask for, so it keeps what they keep.
-/

namespace Brainfuck.Debugger

open Machine

/-- The debugger with a machine that writes behind more bytes. -/
def behind (front : Array UInt8) (debugger : Debugger) : Debugger :=
  { debugger with machine? := debugger.machine?.map (Machine.behind front) }

-----------------------------------------------------------------------------------------
-- Executions and steps
-----------------------------------------------------------------------------------------

section Activities

variable (front : Array UInt8) {α : Type} (hear : α → Notice → α)

/-- A pursuit does not look at what was written before, by induction on the notices that are
admitted.
-/
theorem pursue_behind (allowance : Nat) (heard : α) (breakpoints : Breakpoints)
    (machine : Machine)
    : pursue hear allowance heard breakpoints (machine.behind front)
      = {
          pursue hear allowance heard breakpoints machine with
            state :=
              ((pursue hear allowance heard breakpoints machine).state.1,
                (pursue hear allowance heard breakpoints machine).state.2.behind front)
        } := by
  have finished : ∀ machine : Machine, (machine.behind front).finished = machine.finished :=
    fun _ => rfl
  have counter : ∀ machine : Machine, (machine.behind front).counter = machine.counter :=
    fun _ => rfl
  induction allowance generalizing heard breakpoints machine with
  | zero =>
      simp only [pursue, finished, counter, attempt_behind]
      split
      · rfl
      · rcases breakpoints.query machine.counter with ⟨_ | _, passed⟩ <;> rfl
  | succ left ih =>
      simp only [pursue, finished, counter, attempt_behind]
      split
      · rfl
      · rcases breakpoints.query machine.counter with ⟨_ | _, passed⟩
        · rcases machine.attempt hear (left + 1) heard with ⟨next, later, admitted, ending⟩
          cases ending with
          | returned => exact ih later passed next
          | failed fault => rfl
          | refused => rfl
        · rfl

theorem execute_behind (debugger : Debugger) (allowance : Nat) (heard : α)
    : (debugger.behind front).execute hear allowance heard
      = {
          debugger.execute hear allowance heard with
            state := (debugger.execute hear allowance heard).state.behind front
        } := by
  obtain ⟨configuration, breakpoints, _ | machine, _ | _⟩ := debugger
  · rfl
  · rfl
  · simp only [behind, Option.map_some, execute, pursue_behind]
    rfl
  · rfl

theorem step_behind (debugger : Debugger) (allowance : Nat) (heard : α)
    : (debugger.behind front).step hear allowance heard
      = {
          debugger.step hear allowance heard with
            state := (debugger.step hear allowance heard).state.behind front
        } := by
  obtain ⟨configuration, breakpoints, _ | machine, _ | _⟩ := debugger
  · rfl
  · rfl
  · have finished : (machine.behind front).finished = machine.finished := rfl
    simp only [behind, Option.map_some, Debugger.step, finished, attempt_behind]
    cases machine.finished <;> rfl
  · rfl

end Activities

-----------------------------------------------------------------------------------------
-- Changes and displays
-----------------------------------------------------------------------------------------

section Displays

variable (front : Array UInt8) (debugger : Debugger)

theorem addBreakpoint_behind (breakpoint : Breakpoint)
    : (debugger.behind front).addBreakpoint breakpoint
      = (debugger.addBreakpoint breakpoint).map (behind front) := by
  simp only [addBreakpoint, behind]
  cases debugger.breakpoints.add breakpoint <;> rfl

theorem removeBreakpoint_behind (address : Int)
    : (debugger.behind front).removeBreakpoint address
      = (debugger.removeBreakpoint address).map (Prod.map id (behind front)) := by
  simp only [removeBreakpoint, behind]
  cases debugger.breakpoints.remove address <;> rfl

theorem region_behind (start count columns : Int)
    : (debugger.behind front).region start count columns
      = debugger.region start count columns := by
  obtain ⟨configuration, breakpoints, _ | machine, complete⟩ := debugger <;> rfl

theorem state_behind : (debugger.behind front).state false = debugger.state false := by
  obtain ⟨configuration, breakpoints, _ | machine, complete⟩ := debugger <;> rfl

theorem executionReport_behind
    : executionReport (debugger.behind front) = executionReport debugger := by
  obtain ⟨configuration, breakpoints, _ | machine, complete⟩ := debugger <;> rfl

end Displays

-----------------------------------------------------------------------------------------
-- Conversations
-----------------------------------------------------------------------------------------

section Conversations

variable (front : Array UInt8) {α : Type} (hear : α → Notice → α)

/-- The conversation with a debugger whose machine writes behind more bytes. -/
def Conversation.behind (conversation : Conversation α) : Conversation α :=
  { conversation with debugger := conversation.debugger.behind front }

variable (conversation : Conversation α)

theorem replyToFault_behind (fault : Fault)
    : replyToFault (conversation.behind front) fault
      = (replyToFault conversation fault).map id (Conversation.behind front) := by
  simp only [replyToFault]
  split_ifs <;> rfl

theorem replyToRun_behind (run : Run Debugger α)
    : replyToRun (conversation.behind front) { run with state := run.state.behind front }
      = (replyToRun conversation run).map id (Conversation.behind front) := by
  obtain ⟨debugger, heard, allowance, ending⟩ := run
  cases ending with
  | returned => rfl
  | failed fault =>
      exact replyToFault_behind front { conversation with debugger, heard, allowance } fault
  | refused => rfl

theorem replyToDump_behind (words : List String)
    : replyToDump (conversation.behind front) words
      = (replyToDump conversation words).map id (Conversation.behind front) := by
  have machine
      : (conversation.behind front).debugger.machine?
        = conversation.debugger.machine?.map (Machine.behind front) :=
    rfl
  have tape : ∀ machine : Machine, (machine.behind front).tape = machine.tape := fun _ => rfl
  have shown : (conversation.behind front).debugger.region = conversation.debugger.region := by
    funext start count columns
    exact region_behind front conversation.debugger start count columns
  -- The dump starts at the current cell unless the words say otherwise.
  cases loaded : conversation.debugger.machine? <;>
    simp only [replyToDump, machine, loaded, Option.map_none, Option.map_some, tape, shown]
  all_goals
    split
    · exact replyToFault_behind front conversation _
    · exact replyToFault_behind front conversation _
    · split
      · rfl
      · exact replyToFault_behind front (conversation.say _) _

theorem replyToToggle_behind (words : List String)
    : replyToToggle (conversation.behind front) words
      = (replyToToggle conversation words).map id (Conversation.behind front) := by
  have same
      : (conversation.debugger.behind front).breakpoints = conversation.debugger.breakpoints :=
    rfl
  unfold replyToToggle
  cases numberAt words 1 with
  | error fault => exact replyToFault_behind front conversation fault
  | ok address =>
      simp only [Conversation.behind, removeBreakpoint_behind, addBreakpoint_behind, same]
      split_ifs
      · cases conversation.debugger.removeBreakpoint address with
        | error fault => exact replyToFault_behind front conversation fault
        | ok result => rfl
      · cases conversation.debugger.addBreakpoint { address } with
        | error fault => exact replyToFault_behind front conversation fault
        | ok after => rfl

theorem replyToSwitch_behind (words : List String)
    : replyToSwitch (conversation.behind front) words
      = (replyToSwitch conversation words).map id (Conversation.behind front) := by
  have same
      : (conversation.behind front).debugger.breakpoints = conversation.debugger.breakpoints :=
    rfl
  unfold replyToSwitch
  cases numberAt words 1 with
  | error fault => exact replyToFault_behind front conversation fault
  | ok address =>
      simp only [same]
      cases conversation.debugger.breakpoints.find? address <;> rfl

theorem replyToResume_behind
    : replyToResume hear (conversation.behind front)
      = (replyToResume hear conversation).map id (Conversation.behind front) := by
  obtain ⟨debugger, heard, allowance, last, text, log, ending⟩ := conversation
  simp only [replyToResume, Conversation.behind, execute_behind, executionReport_behind]
  generalize debugger.execute hear allowance heard = run
  obtain ⟨⟨configuration, breakpoints, machine?, complete⟩, heard, allowance, ends⟩ := run
  cases ends with
  | returned =>
      cases machine? with
      | none => rfl
      | some machine =>
          obtain ⟨entries, interrupted⟩ := breakpoints
          cases interrupted <;> rfl
  | failed fault =>
      let debugger : Debugger := { configuration, breakpoints, machine?, complete }
      exact replyToFault_behind front
        { debugger, heard, allowance, last, text, log, ending } fault
  | refused => rfl

theorem replyToStep_behind
    : replyToStep hear (conversation.behind front)
      = (replyToStep hear conversation).map id (Conversation.behind front) := by
  obtain ⟨debugger, heard, allowance, last, text, log, ending⟩ := conversation
  simp only [replyToStep, Conversation.behind, step_behind]
  exact replyToRun_behind front
    { debugger := {}, heard := _, allowance, last, text, log, ending } _

theorem reply_behind (command : ConsoleCommand)
    : reply hear (conversation.behind front) command
      = (reply hear conversation command).map id (Conversation.behind front) := by
  cases command with
  | step => exact replyToStep_behind front hear conversation
  | resume => exact replyToResume_behind front hear conversation
  | dump words => exact replyToDump_behind front conversation words
  | toggle words => exact replyToToggle_behind front conversation words
  | switch words => exact replyToSwitch_behind front conversation words
  | quit | list | unknown => rfl

theorem takeLine_behind (line : String)
    : takeLine hear (conversation.behind front) line
      = (takeLine hear conversation line).map id (Conversation.behind front) := by
  have last : (conversation.behind front).last = conversation.last := rfl
  simp only [takeLine, last]
  generalize (if (Text.trim line).isEmpty then conversation.last else Text.trim line) = command
  exact reply_behind front hear { conversation with last := command } (.ofLine command)

theorem ask_behind
    : ask false (conversation.behind front)
      = (ask false conversation).map id (Conversation.behind front) := by
  have shown
      : (conversation.behind front).debugger.state false = conversation.debugger.state false :=
    state_behind front conversation.debugger
  have complete
      : (conversation.behind front).debugger.complete = conversation.debugger.complete :=
    rfl
  simp only [ask, shown, complete]
  split
  · rfl
  · split <;> rfl

theorem farewell_behind
    : farewell false (conversation.behind front)
      = (farewell false conversation).behind front := by
  obtain ⟨debugger, heard, allowance, last, text, log, ending⟩ := conversation
  cases ending <;> rfl

/-- A conversation that does not show the output does not depend on what was written before, by
induction on its lines.
-/
theorem converseOver_behind (lines : List String)
    : converseOver hear false lines (conversation.behind front)
      = (converseOver hear false lines conversation).behind front := by
  induction lines generalizing conversation with
  | nil => simp only [converseOver, ask_behind, Prod.map_snd, farewell_behind]
  | cons line rest ih =>
      simp only [converseOver, ask_behind]
      rcases ask false conversation with ⟨_ | _, asked⟩
      · simp only [Prod.map_apply, id, takeLine_behind]
        rcases takeLine hear asked line with ⟨_ | _, replied⟩
        · exact ih replied
        · exact farewell_behind front replied
      · exact farewell_behind front asked

theorem converse_behind (allowance : Nat) (heard : α) (lines : List String)
    (debugger : Debugger)
    : converse hear false allowance heard lines (debugger.behind front)
      = (converse hear false allowance heard lines debugger).behind front :=
  converseOver_behind front hear (.opened allowance heard debugger) lines

end Conversations

-----------------------------------------------------------------------------------------
-- What conversations keep
-----------------------------------------------------------------------------------------

section Keeping

variable {α : Type} (hear : α → Notice → α) (conversation : Conversation α)

theorem debugger_replyToFault (fault : Fault)
    : (replyToFault conversation fault).2.debugger = conversation.debugger := by
  simp only [replyToFault]
  split_ifs <;> rfl

theorem debugger_replyToRun (run : Run Debugger α)
    : (replyToRun conversation run).2.debugger = run.state := by
  obtain ⟨debugger, heard, allowance, ending⟩ := run
  cases ending with
  | returned => rfl
  | failed fault => exact debugger_replyToFault _ fault
  | refused => rfl

theorem debugger_replyToDump (words : List String)
    : (replyToDump conversation words).2.debugger = conversation.debugger := by
  simp only [replyToDump]
  split
  · exact debugger_replyToFault conversation _
  · exact debugger_replyToFault conversation _
  · split
    · rfl
    · exact debugger_replyToFault (conversation.say _) _

theorem debugger_replyToResume
    : (replyToResume hear conversation).2.debugger
      = (conversation.debugger.execute hear conversation.allowance
          conversation.heard).state := by
  simp only [replyToResume]
  split
  · split <;> exact debugger_replyToRun _ _
  · exact debugger_replyToRun _ _

theorem debugger_ask (showsOutput : Bool)
    : (ask showsOutput conversation).2.debugger = conversation.debugger := by
  simp only [ask]
  split
  · rfl
  · split <;> rfl

theorem debugger_farewell (showsOutput : Bool)
    : (farewell showsOutput conversation).debugger = conversation.debugger := by
  unfold farewell
  split <;> rfl

/-- A property of debuggers that every operation keeps, whatever listens to it. -/
structure Kept (property : Debugger → Prop) : Prop where
  execute
    : ∀ {debugger : Debugger},
        property debugger
        → ∀ {α : Type} (hear : α → Notice → α) (allowance : Nat) (heard : α),
            property (debugger.execute hear allowance heard).state
  step
    : ∀ {debugger : Debugger},
        property debugger
        → ∀ {α : Type} (hear : α → Notice → α) (allowance : Nat) (heard : α),
            property (debugger.step hear allowance heard).state
  add
    : ∀ {debugger after : Debugger} {breakpoint : Breakpoint},
        property debugger → debugger.addBreakpoint breakpoint = .ok after → property after
  remove
    : ∀ {debugger after : Debugger} {address : Int} {breakpoint : Breakpoint},
        property debugger
        → debugger.removeBreakpoint address = .ok (breakpoint, after)
        → property after
  switch
    : ∀ {debugger : Debugger},
        property debugger
        → ∀ (address : Int) (enabled : Bool),
            property (debugger.switchBreakpoint address enabled)

namespace Kept

variable {property : Debugger → Prop} (kept : Kept property) {conversation}
include kept

theorem replyToToggle (holds : property conversation.debugger) (words : List String)
    : property (replyToToggle conversation words).2.debugger := by
  simp only [Debugger.replyToToggle]
  split
  · exact debugger_replyToFault conversation _ ▸ holds
  · split
    · split
      · exact debugger_replyToFault conversation _ ▸ holds
      · exact kept.remove holds ‹_›
    · split
      · exact debugger_replyToFault conversation _ ▸ holds
      · exact kept.add holds ‹_›

theorem replyToSwitch (holds : property conversation.debugger) (words : List String)
    : property (replyToSwitch conversation words).2.debugger := by
  simp only [Debugger.replyToSwitch]
  split
  · exact debugger_replyToFault conversation _ ▸ holds
  · split
    · exact holds
    · exact kept.switch holds _ _

/-- A reply comes to one operation at most, by cases on the command. -/
theorem reply (holds : property conversation.debugger) (command : ConsoleCommand)
    : property (reply hear conversation command).2.debugger := by
  cases command with
  | step =>
      simp only [Debugger.reply, replyToStep, debugger_replyToRun]
      exact kept.step holds hear _ _
  | resume =>
      simp only [Debugger.reply, debugger_replyToResume]
      exact kept.execute holds hear _ _
  | dump words =>
      simp only [Debugger.reply, debugger_replyToDump]
      exact holds
  | toggle words => exact kept.replyToToggle holds words
  | switch words => exact kept.replyToSwitch holds words
  | quit | list | unknown => exact holds

theorem takeLine (holds : property conversation.debugger) (line : String)
    : property (takeLine hear conversation line).2.debugger := by
  simp only [Debugger.takeLine]
  generalize (if (Text.trim line).isEmpty then conversation.last else Text.trim line) = command
  let named : Conversation α := { conversation with last := command }
  have same : property named.debugger := holds
  exact kept.reply hear same (.ofLine command)

/-- What operations keep is kept by a conversation, by induction on its lines. -/
theorem converseOver (holds : property conversation.debugger) (showsOutput : Bool)
    (lines : List String)
    : property (converseOver hear showsOutput lines conversation).debugger := by
  induction lines generalizing conversation with
  | nil =>
      simp only [Debugger.converseOver, debugger_farewell, debugger_ask]
      exact holds
  | cons line rest ih =>
      have asked : property (ask showsOutput conversation).2.debugger :=
        debugger_ask conversation showsOutput ▸ holds
      simp only [Debugger.converseOver]
      generalize ask showsOutput conversation = asking at asked ⊢
      rcases asking with ⟨_ | _, next⟩
      · have replied := kept.takeLine hear (show property next.debugger from asked) line
        simp only
        generalize Debugger.takeLine hear next line = taken at replied ⊢
        rcases taken with ⟨_ | _, later⟩
        · exact ih replied
        · exact debugger_farewell later showsOutput ▸ replied
      · exact debugger_farewell next showsOutput ▸ asked

theorem converse {debugger : Debugger} (holds : property debugger) (showsOutput : Bool)
    (allowance : Nat) (heard : α) (lines : List String)
    : property (converse hear showsOutput allowance heard lines debugger).debugger :=
  kept.converseOver hear
    (show property (Conversation.opened allowance heard debugger).debugger from holds)
    showsOutput lines

end Kept

end Keeping

end Brainfuck.Debugger
