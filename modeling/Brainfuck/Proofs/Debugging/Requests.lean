import Brainfuck.Proofs.Debugging.Conversing
import Brainfuck.Proofs.Debugging.Session

/-! Requests to a debugger, and what they get for an answer.
An answer holds everything that a caller sees, but the bytes that had been written before the
request. They do not matter: debuggers that differ in them alone give the same answers, also
when they load other outputs later on.
-/

namespace Brainfuck.Debugger

open Machine

/-- What can be asked of a debugger at any time. Resuming is executing. A state is shown
without the output, and so it is in a conversation.
-/
inductive Request where
  | load (program : Program) (input : Input) (output : Output)
  | operate (operation : Operation)
  | region (start count columns : Int)
  | state
  | converse (allowance : Nat) (lines : List String)
deriving DecidableEq, Repr

/-- The bytes that the machine has written, and those that its output held before. -/
def written (debugger : Debugger) : List UInt8 :=
  match debugger.machine? with
  | none => []
  | some machine => machine.output.bytes.toList

/-- What a request gets for an answer: the debugger afterwards, how the request has ended, what
the listener has heard, the breakpoint that it was about, the text shown, the reports logged,
and the bytes written meanwhile.
-/
structure Response where
  debugger : Debugger
  ending : Ending := .returned
  heard : Array Notice := #[]
  breakpoint? : Option Breakpoint := none
  text : String := ""
  log : Array String := #[]
  written : List UInt8 := []
deriving DecidableEq, Repr

namespace Response

/-- The bytes that a debugger has written on its way to another one. -/
def writtenSince (before after : Debugger) : List UInt8 :=
  after.written.drop before.written.length

/-- Responds by what an activity leaves behind. -/
def ofRun (before : Debugger) (run : Run Debugger (Array Notice)) : Response where
  debugger := run.state
  ending := run.ending
  heard := run.heard
  written := writtenSince before run.state

/-- Responds by a change, which is about a breakpoint or about none. A change that is refused
leaves the debugger as it was.
-/
def ofChange (before : Debugger) : Except Fault (Option Breakpoint × Debugger) → Response
  | .error fault => { debugger := before, ending := .failed fault }
  | .ok (breakpoint?, debugger) => { debugger, breakpoint? }

/-- Responds by a report. -/
def ofReport (debugger : Debugger) (report : Report) : Response where
  debugger
  ending :=
    match report.fault? with
    | none => .returned
    | some fault => .failed fault
  text := report.text

/-- Responds by a conversation. -/
def ofConversation (before : Debugger) (conversation : Conversation (Array Notice))
    : Response where
  debugger := conversation.debugger
  ending := conversation.ending
  heard := conversation.heard
  text := conversation.text
  log := conversation.log
  written := writtenSince before conversation.debugger

end Response

/-- Responds to an operation. -/
def respondTo (debugger : Debugger) : Operation → Response
  | .execute allowance => .ofRun debugger (debugger.execute Array.push allowance #[])
  | .step allowance => .ofRun debugger (debugger.step Array.push allowance #[])
  | .add breakpoint =>
      .ofChange debugger
        ((debugger.addBreakpoint breakpoint).map fun after => (some breakpoint, after))
  | .remove address =>
      .ofChange debugger ((debugger.removeBreakpoint address).map (Prod.map some id))
  | .switch address enabled =>
      {
        debugger := debugger.switchBreakpoint address enabled
        breakpoint? := debugger.breakpoints.find? address
      }

/-- Responds to a request. -/
def respond (debugger : Debugger) : Request → Response
  | .load program input output =>
      .ofChange debugger
        ((debugger.load program input output).map fun loaded => (none, loaded))
  | .operate operation => debugger.respondTo operation
  | .region start count columns => .ofReport debugger (debugger.region start count columns)
  | .state => .ofReport debugger (debugger.state false)
  | .converse allowance lines =>
      .ofConversation debugger (converse Array.push false allowance #[] lines debugger)

/-- The debugger that requests lead to, one after the other. -/
def after (debugger : Debugger) (requests : List Request) : Debugger :=
  requests.foldl (fun current request => (current.respond request).debugger) debugger

-----------------------------------------------------------------------------------------
-- Answers without what was written before
-----------------------------------------------------------------------------------------

/-- The request with an output of the same kind that holds nothing. -/
def Request.cleared : Request → Request
  | .load program input output => .load program input output.cleared
  | request => request

/-- The debugger with an output of the same kind that holds nothing. -/
def cleared (debugger : Debugger) : Debugger :=
  {
    debugger with
      machine? :=
        debugger.machine?.map fun machine => { machine with output := machine.output.cleared }
  }

/-- The response without the bytes that had been written before. -/
def Response.cleared (response : Response) : Response :=
  { response with debugger := response.debugger.cleared }

/-- The answers to requests, one after the other. -/
def answers (debugger : Debugger) : List Request → List Response
  | [] => []
  | request :: later =>
      (debugger.respond request).cleared :: (debugger.respond request).debugger.answers later

theorem cleared_behind (front : Array UInt8) (debugger : Debugger)
    : (debugger.behind front).cleared = debugger.cleared := by
  obtain ⟨configuration, breakpoints, _ | machine, complete⟩ := debugger
  · rfl
  · simp only [cleared, behind, Option.map_some, Machine.behind, Output.cleared_behind]

/-- Every debugger is one whose output holds nothing, behind what its own output holds. -/
theorem exists_behind_cleared (debugger : Debugger)
    : ∃ front, debugger.cleared.behind front = debugger := by
  obtain ⟨configuration, breakpoints, _ | machine, complete⟩ := debugger
  · exact ⟨#[], rfl⟩
  · refine ⟨machine.output.bytes, ?_⟩
    simp only [cleared, behind, Option.map_some, Machine.behind, Output.behind_cleared]

/-- What is written meanwhile does not depend on what was written before, as long as both
debuggers have the same place to write to.
-/
theorem writtenSince_behind {front : Array UInt8} {before after : Debugger}
    (together : before.behind front = before → after.behind front = after)
    : Response.writtenSince (before.behind front) (after.behind front)
      = Response.writtenSince before after := by
  by_cases unmoved : before.behind front = before
  · rw [unmoved, together unmoved]
  · obtain ⟨_, _, _ | ⟨_, _, _, _, _ | bytes, _⟩, _⟩ := before
    · exact absurd rfl unmoved
    · exact absurd rfl unmoved
    · obtain ⟨_, _, _ | machine, _⟩ := after
      · simp only [Response.writtenSince, written, behind, Option.map_none, List.drop_nil]
      · exact machine.output.drop_behind front bytes

namespace Response

/-- The response of a debugger whose machine writes behind more bytes. -/
def behind (front : Array UInt8) (response : Response) : Response :=
  { response with debugger := response.debugger.behind front }

theorem cleared_behind (front : Array UInt8) (response : Response)
    : (response.behind front).cleared = response.cleared := by
  simp only [cleared, behind, Debugger.cleared_behind]

theorem ofRun_behind {front : Array UInt8} {before : Debugger}
    {run : Run Debugger (Array Notice)}
    (together : before.behind front = before → run.state.behind front = run.state)
    : ofRun (before.behind front) { run with state := run.state.behind front }
      = (ofRun before run).behind front := by
  simp only [ofRun, behind, writtenSince_behind together]

theorem ofConversation_behind {front : Array UInt8} {before : Debugger}
    {conversation : Conversation (Array Notice)}
    (together
      : before.behind front = before
        → conversation.debugger.behind front = conversation.debugger)
    : ofConversation (before.behind front) (conversation.behind front)
      = (ofConversation before conversation).behind front := by
  have same : (conversation.behind front).debugger = conversation.debugger.behind front := rfl
  simp only [ofConversation, behind, same, writtenSince_behind together]
  rfl

end Response

/-- Operations get the same answers, whatever was written before, by cases on the operation. -/
theorem respondTo_behind (front : Array UInt8) (debugger : Debugger) (operation : Operation)
    : (debugger.behind front).respondTo operation
      = (debugger.respondTo operation).behind front := by
  cases operation with
  | execute allowance =>
      have executed := execute_behind front Array.push debugger allowance #[]
      simp only [respondTo, executed]
      apply Response.ofRun_behind
      intro unmoved
      rw [unmoved] at executed
      exact (congrArg Run.state executed).symm
  | step allowance =>
      have stepped := step_behind front Array.push debugger allowance #[]
      simp only [respondTo, stepped]
      apply Response.ofRun_behind
      intro unmoved
      rw [unmoved] at stepped
      exact (congrArg Run.state stepped).symm
  | add breakpoint =>
      simp only [respondTo, addBreakpoint_behind]
      cases debugger.addBreakpoint breakpoint <;> rfl
  | remove address =>
      simp only [respondTo, removeBreakpoint_behind]
      cases debugger.removeBreakpoint address <;> rfl
  | switch address enabled => rfl

-----------------------------------------------------------------------------------------
-- Loads
-----------------------------------------------------------------------------------------

/-- A load looks at nothing but the configuration and the breakpoints. -/
theorem load_congr {left right : Debugger}
    (configuration : left.configuration = right.configuration)
    (entries : left.breakpoints.entries = right.breakpoints.entries) (program : Program)
    (input : Input) (output : Output)
    : left.load program input output = right.load program input output := by
  obtain ⟨_, ⟨_, _⟩, _, _⟩ := left
  obtain ⟨_, ⟨_, _⟩, _, _⟩ := right
  cases configuration
  cases entries
  rfl

/-- What an output holds does not matter to a load. -/
theorem load_behind (front : Array UInt8) (debugger : Debugger) (program : Program)
    (input : Input) (output : Output)
    : debugger.load program input (output.behind front)
      = (debugger.load program input output).map (behind front) := by
  simp only [load, Configuration.machine?]
  cases debugger.configuration.code? program <;> rfl

/-- Every request gets the same answer, whatever was written before. -/
theorem respond_behind (front : Array UInt8) (debugger : Debugger) (request : Request)
    : ((debugger.behind front).respond request).cleared
      = (debugger.respond request).cleared := by
  cases request with
  | load program input output =>
      have same
          : (debugger.behind front).load program input output
            = debugger.load program input output :=
        load_congr rfl rfl program input output
      simp only [respond, same]
      cases debugger.load program input output with
      | error fault =>
          simp only [Except.map, Response.ofChange, Response.cleared, cleared_behind]
      | ok loaded => rfl
  | operate operation =>
      simp only [respond, respondTo_behind, Response.cleared_behind]
  | region start count columns =>
      simp only [respond, region_behind]
      exact Response.cleared_behind front (.ofReport debugger _)
  | state =>
      simp only [respond, state_behind]
      exact Response.cleared_behind front (.ofReport debugger _)
  | converse allowance lines =>
      have conversed := converse_behind front Array.push allowance #[] lines debugger
      simp only [respond, conversed]
      rw [Response.ofConversation_behind, Response.cleared_behind]
      intro unmoved
      rw [unmoved] at conversed
      exact (congrArg Conversation.debugger conversed).symm

/-- A request gets the same answer when its output holds nothing. -/
theorem respond_cleared (debugger : Debugger) (request : Request)
    : (debugger.respond request.cleared).cleared = (debugger.respond request).cleared := by
  cases request with
  | load program input output =>
      have loads := load_behind output.bytes debugger program input output.cleared
      rw [Output.behind_cleared] at loads
      simp only [Request.cleared, respond, loads]
      cases debugger.load program input output.cleared with
      | error fault => rfl
      | ok loaded =>
          simp only [Except.map, Response.ofChange, Response.cleared, cleared_behind]
  | operate | region | state | converse => rfl

/-- A step of two debuggers that differ in what was written before, by requests that differ in
what their outputs hold.
-/
theorem respond_congr {left right : Debugger} (debuggers : left.cleared = right.cleared)
    {request other : Request} (requests : request.cleared = other.cleared)
    : (left.respond request).cleared = (right.respond other).cleared := by
  obtain ⟨front, behindLeft⟩ := left.exists_behind_cleared
  obtain ⟨otherFront, behindRight⟩ := right.exists_behind_cleared
  calc (left.respond request).cleared
    _ = ((left.cleared.behind front).respond request.cleared).cleared := by
      rw [behindLeft, respond_cleared]
    _ = ((right.cleared.behind otherFront).respond other.cleared).cleared := by
      rw [respond_behind, respond_behind, debuggers, requests]
    _ = (right.respond other).cleared := by
      rw [behindRight, respond_cleared]

/-- Debuggers that differ in what was written before give the same answers, also when they load
other outputs of the same kind, by induction on the requests.
-/
theorem answers_congr {left right : Debugger} (debuggers : left.cleared = right.cleared)
    {requests others : List Request}
    (alike : requests.map Request.cleared = others.map Request.cleared)
    : left.answers requests = right.answers others := by
  induction requests generalizing left right others with
  | nil =>
      obtain rfl := List.map_eq_nil_iff.mp alike.symm
      rfl
  | cons request later ih =>
      cases others with
      | nil => cases alike
      | cons other others =>
          obtain ⟨here, rest⟩ := List.cons.inj alike
          have same := respond_congr debuggers here
          have next
              : (left.respond request).debugger.cleared
                = (right.respond other).debugger.cleared :=
            congrArg Response.debugger same
          simp only [answers, same, ih next rest]

end Brainfuck.Debugger
