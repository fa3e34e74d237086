import Brainfuck.Proofs.Debugging.Replies

/-! The console as a front end of the debugger.
Every line comes to a command, and every command to a directive or to none. A conversation leaves
the debugger as these directives do when they are given one by one, up to the line that ends it,
and it ends whenever they do. Its reply reminds of the commands that take numbers exactly if the
command lacks one that it takes.
-/

namespace Brainfuck.Debugger

-----------------------------------------------------------------------------------------
-- Lines and directives
-----------------------------------------------------------------------------------------

/-- The latest line that is not blank, without the blanks around it, or a step when all are. -/
def latest (typed : List String) : String :=
  ((typed.map Text.trim).reverse.find? fun line => !line.isEmpty).getD "s"

/-- The commands that lines come to when others have been typed before: each line asks for the
latest one up to it.
-/
def commandsBehind (typed lines : List String) : List String :=
  (List.range lines.length).map fun index => latest (typed ++ lines.take (index + 1))

/-- A command ends the conversation before it is carried out, because the program is complete or
because it says so.
-/
def Stops (debugger : Debugger) (command : String) : Prop :=
  debugger.complete = true ∨ Begins 'q' command

/-- What becomes of a debugger when the directives of commands are given one by one. They end with
the last command, with the first one that stops, and with the first step or execution that fails,
which is one that is reported.
-/
inductive Calls : Debugger → List String → Debugger → Prop
  | exhausted (debugger : Debugger) : Calls debugger [] debugger
  | stops {debugger : Debugger} {command : String} {commands : List String}
    (stops : debugger.Stops command)
    : Calls debugger (command :: commands) debugger
  | rests {debugger last : Debugger} {command : String} {commands : List String}
    (going : ¬ debugger.Stops command) (none : debugger.directive? command = none)
    (later : Calls debugger commands last)
    : Calls debugger (command :: commands) last
  | returns {debugger next last : Debugger} {command : String} {commands : List String}
    {directive : Directive} (going : ¬ debugger.Stops command)
    (asks : debugger.directive? command = some directive)
    (does : debugger.Does directive next .returned) (later : Calls next commands last)
    : Calls debugger (command :: commands) last
  | raises {debugger next : Debugger} {command : String} {commands : List String}
    {directive : Directive} {fault : Fault} (going : ¬ debugger.Stops command)
    (asks : debugger.directive? command = some directive)
    (attempts : directive = .step ∨ directive = .resume)
    (does : debugger.Does directive next (.failed fault))
    (reported : fault.kind.isReported = true)
    : Calls debugger (command :: commands) next

theorem latest_snoc (typed : List String) (line : String)
    : latest (typed ++ [line])
      = if (Text.trim line).isEmpty then latest typed else Text.trim line := by
  unfold latest
  cases blank : (Text.trim line).isEmpty <;> simp [blank]

theorem commandsBehind_cons (typed : List String) (line : String) (rest : List String)
    : commandsBehind typed (line :: rest)
      = latest (typed ++ [line]) :: commandsBehind (typed ++ [line]) rest := by
  simp [commandsBehind, List.range_succ_eq_map]

section Lines

variable {debugger : Debugger} {directive : Directive} {command : String} {α : Type}
  {hear : α → Notice → α} {showsOutput : Bool} {conversation : Conversation α}

/-- What a command asks for is a step, an execution, or a change that is made at once. -/
theorem attempts_or_changes (asks : debugger.directive? command = some directive)
    : (directive = .step ∨ directive = .resume)
      ∨ ∃ after,
          ∀ {α : Type} (hear : α → Notice → α) allowance heard,
            debugger.undertake hear allowance heard directive
            = { state := after, heard, allowance } := by
  unfold directive? at asks
  split at asks
  · cases asks
    exact Or.inl (Or.inl rfl)
  · cases asks
    exact Or.inl (Or.inr rfl)
  · obtain ⟨address, _, asks⟩ := Option.bind_eq_some_iff.mp asks
    split_ifs at asks with present inside <;> cases asks
    · obtain ⟨breakpoint, after, removes⟩ := exists_removeBreakpoint present
      exact Or.inr ⟨after, fun _ _ _ => undertake_remove removes⟩
    · obtain ⟨after, adds⟩ := exists_addBreakpoint inside (Bool.not_eq_true _ ▸ present)
      exact Or.inr ⟨after, fun _ _ _ => undertake_add adds⟩
  · obtain ⟨address, _, asks⟩ := Option.bind_eq_some_iff.mp asks
    obtain ⟨breakpoint, _, rfl⟩ := Option.map_eq_some_iff.mp asks
    exact Or.inr ⟨_, fun _ _ _ => rfl⟩
  · cases asks

/-- What a command asks for fails only as a step or an execution does, for the program. -/
theorem raises_of_failed (sound : conversation.debugger.Sound)
    (asks : conversation.debugger.directive? command = some directive) {fault : Fault}
    (failed : (conversation.undertaking hear directive).ending = .failed fault)
    : (directive = .step ∨ directive = .resume) ∧ fault.kind.isReported = true := by
  rcases attempts_or_changes asks with (rfl | rfl) | ⟨after, changes⟩
  · exact ⟨Or.inl rfl, ((sound.step hear _ _).2 fault failed).isReported⟩
  · exact ⟨Or.inr rfl, ((sound.execute hear _ _).2 fault failed).isReported⟩
  · rw [Conversation.undertaking, changes] at failed
    cases failed

/-- An undertaking of a conversation that ends is what its directive does. -/
theorem does_of_ending {ending : Ending}
    (ended : (conversation.undertaking hear directive).ending = ending)
    (admitted : ending ≠ .refused)
    : conversation.debugger.Does directive (conversation.undertaking hear directive).state
        ending := by
  rw [← ended] at admitted ⊢
  exact does_of_admitted admitted

-----------------------------------------------------------------------------------------
-- One line of a conversation
-----------------------------------------------------------------------------------------

/-- A conversation that goes on with a debugger, a number of notices and a latest command. -/
structure Waits (debugger : Debugger) (allowance : Nat) (last : String)
    (conversation : Conversation α) : Prop where
  debugger : conversation.debugger = debugger
  allowance : conversation.allowance = allowance
  last : conversation.last = last
  ending : conversation.ending = .returned

/-- What becomes of a whole conversation behind an undertaking: it goes on when that returns, and
ends when it fails or is refused.
-/
inductive TakenOver (hear : α → Notice → α) (showsOutput : Bool) (run : Run Debugger α)
    (command : String) (rest : List String) (whole : Conversation α) : Prop
  | returned {next : Conversation α} (returned : run.ending = .returned)
    (waits : Waits run.state run.allowance command next)
    (goesOn : whole = converseOver hear showsOutput rest next)
  | failed {fault : Fault} (failed : run.ending = .failed fault)
    (debugger : whole.debugger = run.state) (ending : whole.ending = .returned)
  | refused (refused : run.ending = .refused) (ending : whole.ending = .refused)

/-- What a line does to a whole conversation, by the command that it comes to. -/
inductive Converses (hear : α → Notice → α) (showsOutput : Bool) (conversation : Conversation α)
    (command : String) (rest : List String) (whole : Conversation α) : Prop
  | stops (stops : conversation.debugger.Stops command)
    (debugger : whole.debugger = conversation.debugger) (ending : whole.ending = .returned)
  | rests {next : Conversation α} (going : ¬ conversation.debugger.Stops command)
    (none : conversation.debugger.directive? command = none)
    (waits : Waits conversation.debugger conversation.allowance command next)
    (goesOn : whole = converseOver hear showsOutput rest next)
  | undertakes {directive : Directive} (going : ¬ conversation.debugger.Stops command)
    (asks : conversation.debugger.directive? command = some directive)
    (taken
      : TakenOver hear showsOutput (conversation.undertaking hear directive) command rest whole)

theorem ending_farewell (showsOutput : Bool) (conversation : Conversation α)
    : (farewell showsOutput conversation).ending = conversation.ending := by
  unfold farewell
  split <;> rfl

theorem ask_of_complete (showsOutput : Bool) (complete : conversation.debugger.complete = true)
    : ask showsOutput conversation = (.ends, conversation) := by
  simp only [ask, complete, if_true]

/-- A debugger with a program always has a state to show. -/
theorem exists_ask (showsOutput : Bool) (running : conversation.debugger.complete = false)
    (loaded : conversation.debugger.machine? ≠ none)
    : ∃ text, ask showsOutput conversation = (.goesOn, conversation.say text) := by
  obtain ⟨machine, holds⟩ := Option.ne_none_iff_exists'.mp loaded
  refine ⟨(conversation.debugger.state showsOutput).text ++ prompt, ?_⟩
  simp only [ask, running, state, holds, Conversation.say, Bool.false_eq_true, if_false,
    String.append_assoc]

/-- A conversation that can go on: its debugger has a program, and its latest command is that of the
lines typed so far.
-/
structure Ready (typed : List String) (conversation : Conversation α) : Prop where
  sound : conversation.debugger.Sound
  loaded : conversation.debugger.machine? ≠ none
  last : conversation.last = latest typed

variable {typed : List String}

/-- A line is replied to as the latest command up to it. -/
theorem Ready.replies (ready : Ready typed conversation) (hear : α → Notice → α) (line : String)
    : Replied hear { conversation with last := latest (typed ++ [line]) }
        (latest (typed ++ [line])) (takeLine hear conversation line) := by
  let named : Conversation α := { conversation with last := latest (typed ++ [line]) }
  have sound : named.debugger.Sound := ready.sound
  have taken
      : takeLine hear conversation line
        = reply hear named (.ofLine (latest (typed ++ [line]))) := by
    simp only [takeLine, ready.last, latest_snoc, named]
  rw [taken]
  exact replied hear sound ready.loaded _

theorem going_of_running (running : debugger.complete = false) (stays : ¬ Begins 'q' command)
    : ¬ debugger.Stops command := by
  simp [Stops, running, stays]

theorem Misused.stays (h : Misused command) : ¬ Begins 'q' command := by
  rcases h with ⟨letter | letter, _⟩ | ⟨letter, _⟩ <;> simp_all [Begins]

/-- Every line does one of these, by cases on the reply to its command. -/
theorem Ready.converses (ready : Ready typed conversation)
    (ending : conversation.ending = .returned) (hear : α → Notice → α) (showsOutput : Bool)
    (line : String) (rest : List String)
    : Converses hear showsOutput conversation (latest (typed ++ [line])) rest
        (converseOver hear showsOutput (line :: rest) conversation) := by
  cases complete : conversation.debugger.complete with
  | true =>
      simp only [converseOver, ask_of_complete showsOutput complete]
      refine .stops (Or.inl complete) (debugger_farewell conversation showsOutput) ?_
      rw [ending_farewell, ending]
  | false =>
      obtain ⟨text, asked⟩ := exists_ask showsOutput complete ready.loaded
      have readyAsked : Ready typed (conversation.say text) :=
        ⟨ready.sound, ready.loaded, ready.last⟩
      have replies := readyAsked.replies hear line
      simp only [converseOver, asked]
      generalize latest (typed ++ [line]) = command at replies ⊢
      generalize takeLine hear (conversation.say text) line = result at replies ⊢
      -- The reply is that to the conversation behind the prompt, which the command is named in.
      let named : Conversation α := { conversation.say text with last := command }
      replace replies : Replied hear named command result := replies
      cases replies with
      | quits quits =>
          refine .stops (Or.inr quits) (debugger_farewell named showsOutput) ?_
          rw [ending_farewell]
          exact ending
      | explained misused none =>
          refine .rests (going_of_running complete misused.stays) none ?_ rfl
          exact ⟨rfl, rfl, rfl, ending⟩
      | rests used stays none barless =>
          refine .rests (going_of_running complete stays) none ?_ rfl
          exact ⟨rfl, rfl, rfl, ending⟩
      | @undertakes directive said log turn used stays asks goesOn barless =>
          refine .undertakes (going_of_running complete stays) asks ?_
          have behind
              : (named.behindRun (named.undertaking hear directive) said log).ending
                = if (named.undertaking hear directive).ending = .refused then .refused
                  else conversation.ending :=
            rfl
          cases ended : (named.undertaking hear directive).ending with
          | returned =>
              have goes : turn = .goesOn := goesOn.mpr ended
              subst goes
              refine .returned ended ?_ rfl
              refine ⟨rfl, rfl, rfl, ?_⟩
              simp [behind, ended, ending]
          | failed fault =>
              cases turn with
              | goesOn => simp [ended] at goesOn
              | ends =>
                  refine .failed ended (debugger_farewell _ showsOutput) ?_
                  simp [ending_farewell, behind, ended, ending]
          | refused =>
              cases turn with
              | goesOn => simp [ended] at goesOn
              | ends =>
                  refine .refused ended ?_
                  simp [ending_farewell, behind, ended]

-----------------------------------------------------------------------------------------
-- Whole conversations
-----------------------------------------------------------------------------------------

/-- Without a line the debugger is left as it is. -/
theorem converseOver_nil (loaded : conversation.debugger.machine? ≠ none)
    : (converseOver hear showsOutput [] conversation).debugger = conversation.debugger
      ∧ (converseOver hear showsOutput [] conversation).ending = conversation.ending := by
  simp only [converseOver, debugger_farewell, debugger_ask, ending_farewell, true_and]
  cases complete : conversation.debugger.complete with
  | true => rw [ask_of_complete showsOutput complete]
  | false =>
      obtain ⟨text, asked⟩ := exists_ask showsOutput complete loaded
      rw [asked]
      rfl

/-- A conversation that admits enough notices leaves the debugger as the directives of its lines
do, by induction on the lines.
-/
theorem Calls.leaves {lines : List String} {last : Debugger}
    (calls : Calls debugger (commandsBehind typed lines) last) (sound : debugger.Sound)
    (loaded : debugger.machine? ≠ none)
    : ∃ enough,
        ∀ {α : Type} (hear : α → Notice → α) (showsOutput : Bool) (conversation : Conversation α)
          (allowance : Nat),
          Waits debugger allowance (latest typed) conversation
          → enough ≤ allowance
          → (converseOver hear showsOutput lines conversation).debugger = last
            ∧ (converseOver hear showsOutput lines conversation).ending = .returned := by
  induction lines generalizing typed debugger with
  | nil =>
      cases calls
      refine ⟨0, ?_⟩
      rintro α hear showsOutput conversation allowance ⟨rfl, rfl, last, ending⟩ -
      obtain ⟨same, ended⟩ := converseOver_nil loaded
      exact ⟨same, ended.trans ending⟩
  | cons line rest ih =>
      rw [commandsBehind_cons] at calls
      cases calls with
      | stops stops =>
          refine ⟨0, ?_⟩
          rintro α hear showsOutput conversation allowance ⟨rfl, rfl, last, ending⟩ -
          cases Ready.converses ⟨sound, loaded, last⟩ ending hear showsOutput line rest with
          | stops _ debugger ended => exact ⟨debugger, ended⟩
          | rests going | undertakes going => exact absurd stops going
      | rests going none later =>
          obtain ⟨enough, leaves⟩ := ih later sound loaded
          refine ⟨enough, ?_⟩
          rintro α hear showsOutput conversation allowance ⟨rfl, rfl, last, ending⟩ le
          cases Ready.converses ⟨sound, loaded, last⟩ ending hear showsOutput line rest with
          | stops stops => exact absurd stops going
          | rests _ _ waits goesOn =>
              rw [goesOn]
              exact leaves hear showsOutput _ _ waits le
          | undertakes _ asks => simp [none] at asks
      | @returns _ next _ _ _ directive going asks does later =>
          obtain ⟨cost, ends⟩ := does.exists_cost
          obtain ⟨enough, leaves⟩ :=
            ih later (does.kept kept_sound sound) (does.kept kept_loaded loaded)
          -- What the directive costs is gone when the later lines begin.
          refine ⟨enough + cost, ?_⟩
          rintro α hear showsOutput conversation allowance ⟨rfl, rfl, last, ending⟩ le
          obtain ⟨state, returned, left⟩ :=
            ends hear conversation.heard conversation.allowance (by omega)
          cases Ready.converses ⟨sound, loaded, last⟩ ending hear showsOutput line rest with
          | stops stops => exact absurd stops going
          | rests _ none => simp [none] at asks
          | undertakes _ asked taken =>
              obtain rfl := Option.some.inj (asks.symm.trans asked)
              cases taken with
              | returned _ waits goesOn =>
                  rw [goesOn]
                  rw [Conversation.undertaking, state] at waits
                  exact leaves hear showsOutput _ _ waits (by omega)
              | failed failed => cases returned.symm.trans failed
              | refused refused => cases returned.symm.trans refused
      | @raises _ next _ _ directive fault going asks attempts does reported =>
          obtain ⟨cost, ends⟩ := does.exists_cost
          refine ⟨cost, ?_⟩
          rintro α hear showsOutput conversation allowance ⟨rfl, rfl, last, ending⟩ le
          obtain ⟨state, failed, left⟩ :=
            ends hear conversation.heard conversation.allowance le
          cases Ready.converses ⟨sound, loaded, last⟩ ending hear showsOutput line rest with
          | stops stops => exact absurd stops going
          | rests _ none => simp [none] at asks
          | undertakes _ asked taken =>
              obtain rfl := Option.some.inj (asks.symm.trans asked)
              cases taken with
              | returned returned => cases failed.symm.trans returned
              | failed _ debugger ended => exact ⟨debugger.trans state, ended⟩
              | refused refused => cases failed.symm.trans refused

/-- A conversation whose notices are all admitted gives the directives of its lines, by induction
on the lines.
-/
theorem Ready.calls_of_admitted {lines : List String} (ready : Ready typed conversation)
    (ending : conversation.ending = .returned)
    (admitted : (converseOver hear showsOutput lines conversation).ending ≠ .refused)
    : Calls conversation.debugger (commandsBehind typed lines)
        (converseOver hear showsOutput lines conversation).debugger := by
  induction lines generalizing typed conversation with
  | nil =>
      rw [(converseOver_nil ready.loaded).1]
      exact .exhausted _
  | cons line rest ih =>
      rw [commandsBehind_cons]
      cases ready.converses ending hear showsOutput line rest with
      | stops stops debugger ended =>
          rw [debugger]
          exact .stops stops
      | @rests next going none waits goesOn =>
          rw [goesOn] at admitted ⊢
          have same := waits.debugger
          have readyNext : Ready (typed ++ [line]) next :=
            ⟨same ▸ ready.sound, same ▸ ready.loaded, waits.last⟩
          have later := ih readyNext waits.ending admitted
          rw [same] at later
          exact .rests going none later
      | @undertakes directive going asks taken =>
          cases taken with
          | @returned next returned waits goesOn =>
              rw [goesOn] at admitted ⊢
              have does := does_of_ending returned nofun
              rw [← waits.debugger] at does
              have readyNext : Ready (typed ++ [line]) next :=
                ⟨does.kept kept_sound ready.sound, does.kept kept_loaded ready.loaded, waits.last⟩
              exact .returns going asks does (ih readyNext waits.ending admitted)
          | @failed fault failed debugger ended =>
              obtain ⟨attempts, reported⟩ := raises_of_failed ready.sound asks failed
              have does := does_of_ending failed nofun
              rw [← debugger] at does
              exact .raises going asks attempts does reported
          | refused refused ended => exact absurd ended admitted

-----------------------------------------------------------------------------------------
-- Reminders
-----------------------------------------------------------------------------------------

/-- A reply has the reminder in it exactly if its command is misused, and then it is all it says. -/
structure Reminds (command said : String) : Prop where
  exactly : usage.toList <:+: said.toList ↔ Misused command
  alone : Misused command → said = usage ++ "\n"

/-- The conversation behind a turn, if it goes on. -/
def next? : Turn × Conversation α → Option (Conversation α)
  | (.goesOn, conversation) => some conversation
  | (.ends, _) => none

/-- The conversation when it asks for a command behind some lines, if it gets there. -/
def asking? (hear : α → Notice → α) (showsOutput : Bool)
    : List String → Conversation α → Option (Conversation α)
  | [], conversation => next? (ask showsOutput conversation)
  | line :: rest, conversation =>
      (next? (ask showsOutput conversation)).bind fun asked =>
        (next? (takeLine hear asked line)).bind (asking? hear showsOutput rest)

theorem next?_eq_some {result : Turn × Conversation α} {next : Conversation α}
    : next? result = some next ↔ result = (.goesOn, next) := by
  rcases result with ⟨_ | _, other⟩ <;> simp [next?]

theorem reminds_of_misused (misused : Misused command) : Reminds command (usage ++ "\n") where
  exactly := iff_of_true ⟨[], ['\n'], by simp⟩ misused
  alone _ := rfl

/-- The reminder has a bar in it, so it is in no text without one. -/
theorem reminds_of_barless (used : ¬ Misused command) {said : String} (barless : Barless said)
    : Reminds command said where
  exactly := by
    have bar : '|' ∈ usage.toList := by decide +kernel
    exact iff_of_false (fun inside => barless (inside.subset bar)) used
  alone misused := absurd misused used

/-- What a reply adds to a conversation, by cases on the reply. -/
theorem Replied.adds {result : Turn × Conversation α}
    (h : Replied hear conversation command result)
    : result.2.last = conversation.last
      ∧ ∃ said, result.2.text = conversation.text ++ said ∧ Reminds command said := by
  cases h with
  | quits quits =>
      have used : ¬ Misused command := fun misused => misused.stays quits
      exact ⟨rfl, "", by simp, reminds_of_barless used (by decide)⟩
  | explained misused none => exact ⟨rfl, _, rfl, reminds_of_misused misused⟩
  | rests used stays none barless => exact ⟨rfl, _, rfl, reminds_of_barless used barless⟩
  | undertakes used stays asks goesOn barless =>
      exact ⟨rfl, _, rfl, reminds_of_barless used barless⟩

/-- The state that is shown adds to a conversation. -/
theorem Ready.of_ask (ready : Ready typed conversation) {turn : Turn} {asked : Conversation α}
    (asks : ask showsOutput conversation = (turn, asked))
    : Ready typed asked ∧ conversation.text.toList <+: asked.text.toList := by
  cases complete : conversation.debugger.complete with
  | true =>
      rw [ask_of_complete showsOutput complete] at asks
      cases asks
      exact ⟨ready, List.prefix_rfl⟩
  | false =>
      obtain ⟨text, goesOn⟩ := exists_ask showsOutput complete ready.loaded
      rw [goesOn] at asks
      cases asks
      exact ⟨⟨ready.sound, ready.loaded, ready.last⟩, by simp [Conversation.say]⟩

/-- A line adds the reply to its command to a conversation. -/
theorem Ready.of_takeLine (ready : Ready typed conversation) (hear : α → Notice → α)
    (line : String)
    : Ready (typed ++ [line]) (takeLine hear conversation line).2
      ∧ ∃ said,
          (takeLine hear conversation line).2.text = conversation.text ++ said
          ∧ Reminds (latest (typed ++ [line])) said := by
  obtain ⟨last, said⟩ := (ready.replies hear line).adds
  have sound := kept_sound.takeLine hear ready.sound line
  have loaded := kept_loaded.takeLine hear ready.loaded line
  exact ⟨⟨sound, loaded, last⟩, said⟩

theorem farewell_adds (showsOutput : Bool) (conversation : Conversation α)
    : conversation.text.toList <+: (farewell showsOutput conversation).text.toList := by
  unfold farewell
  split
  · simp only [Conversation.sayLine, Conversation.say, String.toList_append, List.append_assoc,
      List.prefix_append]
  · exact List.prefix_rfl

/-- What a line adds stays, when the lines behind it only add to what has been said. -/
theorem Ready.line_adds {asked : Conversation α} (ready : Ready typed asked) {line : String}
    {rest : List String} (asks : ask showsOutput conversation = (.goesOn, asked))
    (later
      : ∀ {next : Conversation α},
          Ready (typed ++ [line]) next
          → next.text.toList <+: (converseOver hear showsOutput rest next).text.toList)
    : (takeLine hear asked line).2.text.toList
      <+: (converseOver hear showsOutput (line :: rest) conversation).text.toList := by
  have readyNext := (ready.of_takeLine hear line).1
  simp only [converseOver, asks]
  generalize takeLine hear asked line = taken at readyNext ⊢
  rcases taken with ⟨_ | _, next⟩
  · exact later readyNext
  · exact farewell_adds showsOutput next

/-- A conversation only adds to what has been said, by induction on its lines. -/
theorem Ready.whole_adds (ready : Ready typed conversation) (hear : α → Notice → α)
    (showsOutput : Bool) (lines : List String)
    : conversation.text.toList
      <+: (converseOver hear showsOutput lines conversation).text.toList := by
  induction lines generalizing typed conversation with
  | nil =>
      rcases asks : ask showsOutput conversation with ⟨turn, asked⟩
      simp only [converseOver, asks]
      exact (ready.of_ask asks).2.trans (farewell_adds showsOutput asked)
  | cons line rest ih =>
      rcases asks : ask showsOutput conversation with ⟨_ | _, asked⟩
      · obtain ⟨readyAsked, shown⟩ := ready.of_ask asks
        obtain ⟨-, said, text, -⟩ := readyAsked.of_takeLine hear line
        have replied : asked.text.toList <+: (takeLine hear asked line).2.text.toList := by
          simp [text]
        exact (shown.trans replied).trans (readyAsked.line_adds asks ih)
      · simp only [converseOver, asks]
        exact (ready.of_ask asks).2.trans (farewell_adds showsOutput _)

/-- Where a conversation asks for a command, it replies to the line that follows. -/
theorem Ready.of_asking (ready : Ready typed conversation) {before : Conversation α}
    {front : List String} (asks : asking? hear showsOutput front conversation = some before)
    : Ready (typed ++ front) before
      ∧ ∀ line back,
          (takeLine hear before line).2.text.toList
          <+: (converseOver hear showsOutput (front ++ line :: back) conversation).text.toList := by
  induction front generalizing typed conversation with
  | nil =>
      have asked := next?_eq_some.mp asks
      have readyBefore := (ready.of_ask asked).1
      refine ⟨by rwa [List.append_nil], ?_⟩
      intro line back
      exact readyBefore.line_adds asked fun ready => ready.whole_adds hear showsOutput back
  | cons first front ih =>
      obtain ⟨next, goesOn, later⟩ := Option.bind_eq_some_iff.mp asks
      obtain ⟨replied, taken, asksLater⟩ := Option.bind_eq_some_iff.mp later
      rw [next?_eq_some] at goesOn taken
      have readyReplied := ((ready.of_ask goesOn).1.of_takeLine hear first).1
      rw [taken] at readyReplied
      obtain ⟨readyBefore, adds⟩ := ih readyReplied asksLater
      rw [List.append_assoc] at readyBefore
      refine ⟨readyBefore, ?_⟩
      intro line back
      simp only [List.cons_append, converseOver, goesOn, taken]
      exact adds line back

/-- Where a conversation does not ask for a command, no more lines are read. -/
theorem converseOver_append_of_not_asking {front : List String}
    (silent : asking? hear showsOutput front conversation = none) (back : List String)
    : converseOver hear showsOutput (front ++ back) conversation
      = converseOver hear showsOutput front conversation := by
  induction front generalizing conversation with
  | nil =>
      rcases asked : ask showsOutput conversation with ⟨_ | _, next⟩
      · simp [asking?, asked, next?] at silent
      · cases back <;> simp only [List.nil_append, converseOver, asked]
  | cons first front ih =>
      rcases asked : ask showsOutput conversation with ⟨_ | _, next⟩
      · rcases taken : takeLine hear next first with ⟨_ | _, replied⟩
        · simp only [asking?, asked, taken, next?, Option.bind_some] at silent
          simp only [List.cons_append, converseOver, asked, taken, ih silent]
        · simp only [List.cons_append, converseOver, asked, taken]
      · simp only [List.cons_append, converseOver, asked]

end Lines

-----------------------------------------------------------------------------------------
-- The front end
-----------------------------------------------------------------------------------------

/-- The console is a front end of a debugger: a conversation over lines ends, when enough notices
are admitted, exactly if the directives of the lines do, and it leaves what they leave. Wherever it
asks for a command, its reply reminds of the usage exactly if the command is misused, and where it
does not ask, it reads no further.
-/
structure FrontEnd (debugger : Debugger) (lines : List String) : Prop where
  calls
    : ∀ last,
        Calls debugger (commandsBehind [] lines) last
        ↔ ∃ enough,
            ∀ {α : Type} (hear : α → Notice → α) (showsOutput : Bool) (heard : α) allowance,
              enough ≤ allowance
              → (converse hear showsOutput allowance heard lines debugger).debugger = last
                ∧ (converse hear showsOutput allowance heard lines debugger).ending = .returned
  reminds
    : ∀ {α : Type} (hear : α → Notice → α) (showsOutput : Bool) (heard : α) allowance
        {front line back},
        lines = front ++ line :: back
        → ∀ before,
            asking? hear showsOutput front (.opened allowance heard debugger) = some before
            → ∃ said,
                (takeLine hear before line).2.text = before.text ++ said
                ∧ (takeLine hear before line).2.text.toList
                  <+: (converse hear showsOutput allowance heard lines debugger).text.toList
                ∧ Reminds (latest (front ++ [line])) said
  reads
    : ∀ {α : Type} (hear : α → Notice → α) (showsOutput : Bool) (heard : α) allowance
        {front back},
        lines = front ++ back
        → asking? hear showsOutput front (.opened allowance heard debugger) = none
        → converse hear showsOutput allowance heard lines debugger
          = converse hear showsOutput allowance heard front debugger

/-- A conversation that has just been opened can go on. -/
theorem ready_opened {debugger : Debugger} (sound : debugger.Sound)
    (loaded : debugger.machine? ≠ none) {α : Type} (allowance : Nat) (heard : α)
    : Ready [] (Conversation.opened allowance heard debugger) :=
  ⟨sound, loaded, rfl⟩

/-- The console is a front end of every debugger with a program, over all lines. What it shows of
breakpoints is shown for addresses that can be written, as all are that were typed.
-/
theorem console_is_front_end {debugger : Debugger} (reachable : Reachable debugger)
    (loaded : debugger.machine? ≠ none) (lines : List String)
    : FrontEnd debugger lines where
  calls last := by
    have sound := reachable.sound
    constructor
    · intro calls
      obtain ⟨enough, leaves⟩ := calls.leaves sound loaded
      refine ⟨enough, ?_⟩
      intro α hear showsOutput heard allowance le
      exact leaves hear showsOutput (.opened allowance heard debugger) allowance
        ⟨rfl, rfl, rfl, rfl⟩ le
    · rintro ⟨enough, leaves⟩
      obtain ⟨rfl, ended⟩ := leaves (fun heard _ => heard) false () enough (Nat.le_refl enough)
      have ready := ready_opened sound loaded enough ()
      exact ready.calls_of_admitted rfl (ended ▸ nofun)
  reminds := by
    intro α hear showsOutput heard allowance front line back same before asks
    have ready := ready_opened reachable.sound loaded allowance heard
    obtain ⟨readyBefore, whole⟩ := ready.of_asking asks
    obtain ⟨-, said, text, reminds⟩ := readyBefore.of_takeLine hear line
    rw [same]
    exact ⟨said, text, whole line back, reminds⟩
  reads := by
    intro α hear showsOutput heard allowance front back same silent
    rw [same]
    exact converseOver_append_of_not_asking silent back

theorem console_is_front_end_over_misuse
    : ∃ loaded,
        load { configuration := { tapeSize := 1 } } #[0x2b, 0x2e] .absent .empty = .ok loaded
        ∧ FrontEnd loaded ["b 1", "c", "", "m x", "b", "q"] := by
  have loads
      : load { configuration := { tapeSize := 1 } } #[0x2b, 0x2e] .absent .empty = .ok _ :=
    rfl
  exact ⟨_, loads, console_is_front_end (.load (.fresh _) loads) (Option.some_ne_none _) _⟩

end Brainfuck.Debugger
