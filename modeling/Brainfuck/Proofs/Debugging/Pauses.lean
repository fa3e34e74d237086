import Brainfuck.Proofs.Debugging.Stops
import Brainfuck.Proofs.Execution.Comparison
import Brainfuck.Proofs.Execution.Step
import Brainfuck.Proofs.Execution.Visits

/-! The pauses of a debugging session.
A program that is loaded and executed again and again pauses at every visit to an enabled
breakpoint, and nowhere else; and the call behind the last pause ends as the program does.
-/

namespace Brainfuck.Debugger

open Machine

variable {breakpoints : Breakpoints} {debugger loaded current : Debugger}
  {plain start machine : Machine}

/-- How many steps an execution takes at least in front of a breakpoint that pauses it. -/
def headStart (breakpoints : Breakpoints) : Nat :=
  if breakpoints.interrupted then 1 else 0

theorem headStart_le_iff {count : Nat}
    : headStart breakpoints ≤ count ↔ 1 ≤ count ∨ breakpoints.interrupted = false := by
  unfold headStart
  cases breakpoints.interrupted <;> simp

/-- Nothing stops an execution before it comes to an enabled breakpoint. -/
theorem firstStop_of_comesTo
    (comes : ComesTo breakpoints.Awaits (headStart breakpoints) start machine)
    : ∃ count, FirstStop breakpoints start count { machine, interrupted := true } := by
  obtain ⟨count, late, reached, awaits, quiet⟩ := comes
  refine ⟨count, ⟨machine, reached, .pauses awaits (headStart_le_iff.mp late)⟩, ?_⟩
  intro earlier lt passed other there stops
  obtain ⟨_, _, again, step⟩ := exists_step_of_after?_lt reached lt
  cases again.symm.trans there
  cases stops with
  | finished done => simp [finished_of_step step] at done
  | pauses awaits comes => exact quiet earlier (headStart_le_iff.mpr comes) lt _ there awaits
  | fails _ _ fails => simp [step] at fails

/-- An execution that is paused first of all has come to an enabled breakpoint. -/
theorem comesTo_of_firstStop {count : Nat} {stop : Stop}
    (h : FirstStop breakpoints start count stop) (reached : start.after? count = some machine)
    (awaits : breakpoints.Awaits machine)
    (comes : 1 ≤ count ∨ breakpoints.interrupted = false)
    : ComesTo breakpoints.Awaits (headStart breakpoints) start machine := by
  refine ⟨count, headStart_le_iff.mpr comes, reached, awaits, ?_⟩
  intro earlier late lt passed there awaitsThere
  exact h.first earlier lt passed _ there
    (.pauses awaitsThere (headStart_le_iff.mp late))

/-- How executing goes on from a machine: to the next pause, or as the machine runs. -/
inductive Execution (debugger : Debugger) (start : Machine) : Prop
  | pauses {machine : Machine}
    (comes
      : ComesTo debugger.breakpoints.Awaits (headStart debugger.breakpoints) start machine)
    (ends : debugger.EndsAs { machine, interrupted := true })
  | completes {final : Machine}
    (none
      : ∀ machine,
          ¬ ComesTo debugger.breakpoints.Awaits (headStart debugger.breakpoints) start machine)
    (finishes : start.FinishesAs final)
    (ends : debugger.EndsAs { machine := final, complete := true })
  | raises {final : Machine} {fault : Fault}
    (none
      : ∀ machine,
          ¬ ComesTo debugger.breakpoints.Awaits (headStart debugger.breakpoints) start machine)
    (fails : start.FailsAs final fault)
    (ends : debugger.EndsAs { machine := final, ending := .failed fault })
  | hangs
    (none
      : ∀ machine,
          ¬ ComesTo debugger.breakpoints.Awaits (headStart debugger.breakpoints) start machine)
    (forever : start.RunsForever) (hangs : debugger.Hangs)

/-- Every debugger with a machine that is not complete executes in one of these ways. -/
theorem execution (coherent : debugger.Coherent) (holds : debugger.machine? = some start)
    (running : debugger.complete = false)
    : Execution debugger start := by
  by_cases paused : ∃ machine,
      ComesTo debugger.breakpoints.Awaits (headStart debugger.breakpoints) start machine
  · obtain ⟨machine, comes⟩ := paused
    obtain ⟨count, first⟩ := firstStop_of_comesTo comes
    exact .pauses comes (endsAs_of_firstStop coherent holds running first)
  · have none := not_exists.mp paused
    rcases exists_firstStop debugger.breakpoints start with ⟨count, stop, first⟩ | never
    · have ends := endsAs_of_firstStop coherent holds running first
      obtain ⟨machine, reached, stops⟩ := first.here
      cases stops with
      | finished done => exact .completes none (finishesAs_iff.mpr ⟨count, reached, done⟩) ends
      | pauses awaits comes =>
          exact absurd (comesTo_of_firstStop first reached awaits comes) (none machine)
      | fails unfinished _ step =>
          exact .raises none (failsAs_iff.mpr ⟨count, machine, reached, unfinished, step⟩) ends
    · refine .hangs none (runsForever_iff.mpr ?_) (hangs_of_no_stop holds running never)
      intro count
      induction count with
      | zero => rfl
      | succ count ih =>
          obtain ⟨machine, reached⟩ := Option.isSome_iff_exists.mp ih
          obtain ⟨_, next, step⟩ := passes_of_not_stopsAs (never count machine · reached)
          exact Option.isSome_of_eq_some (after?_snoc reached step)

/-- An execution that returns before the machine has finished is a pause. -/
theorem comesTo_of_endsAs (coherent : debugger.Coherent)
    (holds : debugger.machine? = some start) (running : debugger.complete = false)
    {stop : Stop} (ends : debugger.EndsAs stop) (returned : stop.ending = .returned)
    (incomplete : stop.complete = false)
    : ∃ machine,
        ComesTo debugger.breakpoints.Awaits (headStart debugger.breakpoints) start machine
        ∧ debugger.stopped stop = debugger.stopped { machine, interrupted := true } := by
  cases execution coherent holds running with
  | @pauses machine comes pauses => exact ⟨machine, comes, (ends.unique pauses).1⟩
  | completes _ _ completes =>
      have same := congrArg Debugger.complete (ends.unique completes).1
      simp [stopped, incomplete] at same
  | raises _ _ raises =>
      have same := (ends.unique raises).2
      simp [returned] at same
  | hangs _ _ hangs => exact absurd hangs (ends.not_hangs returned)

/-- Only a debugger that holds a machine and is not complete has executions that return. -/
theorem exists_machine_of_endsAs {stop : Stop} (ends : debugger.EndsAs stop)
    (returned : stop.ending = .returned)
    : ∃ start, debugger.machine? = some start ∧ debugger.complete = false := by
  obtain ⟨enough, ends⟩ := ends
  have ending := (ends Unit (fun _ _ => ()) () (enough + 1) (by omega)).2
  rw [returned] at ending
  obtain ⟨configuration, breakpoints, machine?, complete⟩ := debugger
  cases machine? with
  | none => simp [execute] at ending
  | some machine =>
      cases complete with
      | true => simp [execute] at ending
      | false => exact ⟨machine, rfl, rfl⟩

/-- A pause leaves a coherent debugger behind. -/
theorem coherent_paused (awaits : breakpoints.Awaits machine)
    : (debugger.stopped { machine, interrupted := true }).Coherent :=
  fun _ => ⟨machine, rfl, awaits.1⟩

/-- Behind a pause an execution that returns has taken a step at least. -/
theorem exists_step_behind_pause (coherent : debugger.Coherent) {stop later : Stop}
    (ends : debugger.EndsAs stop) (returned : stop.ending = .returned)
    (incomplete : stop.complete = false) (endsLater : (debugger.stopped stop).EndsAs later)
    (returnedLater : later.ending = .returned)
    : ∃ count, 1 ≤ count ∧ stop.machine.after? count = some later.machine := by
  obtain ⟨start, holds, running⟩ := exists_machine_of_endsAs ends returned
  obtain ⟨machine, comes, same⟩ :=
    comesTo_of_endsAs coherent holds running ends returned incomplete
  obtain ⟨_, _, _, awaits, _⟩ := comes
  have stops : stop.machine = machine :=
    Option.some.inj (congrArg Debugger.machine? same)
  rw [same] at endsLater
  cases execution (coherent_paused awaits) rfl rfl with
  | pauses comesLater pauses =>
      obtain ⟨count, late, reached, _⟩ := comesLater
      have laterStops := Option.some.inj (congrArg Debugger.machine? (endsLater.unique pauses).1)
      exact ⟨count, late, by rw [stops, laterStops, reached]⟩
  | completes _ finishes completes =>
      obtain ⟨count, reached, done⟩ := finishesAs_iff.mp finishes
      have laterStops :=
        Option.some.inj (congrArg Debugger.machine? (endsLater.unique completes).1)
      refine ⟨count, ?_, by rw [stops, laterStops, reached]⟩
      apply Nat.pos_of_ne_zero
      intro none
      subst none
      cases reached
      simp [awaits.1] at done
  | raises _ _ raises =>
      have other := (endsLater.unique raises).2
      simp [returnedLater] at other
  | hangs _ _ hangs => exact absurd hangs (endsLater.not_hangs returnedLater)

-----------------------------------------------------------------------------------------
-- Sessions
-----------------------------------------------------------------------------------------

/-- The debugger after so many executions of a loaded program that have all returned before
its end.
-/
inductive PausesAs (loaded : Debugger) : Nat → Debugger → Prop
  | start : PausesAs loaded 0 loaded
  | pause {number : Nat} {before : Debugger} {stop : Stop}
    (earlier : PausesAs loaded number before) (ends : before.EndsAs stop)
    (returned : stop.ending = .returned) (incomplete : stop.complete = false)
    : PausesAs loaded (number + 1) (before.stopped stop)

/-- Where a session stands after a number of pauses: what it comes to next is the visit of
this number.
-/
structure Stands (loaded : Debugger) (plain : Machine) (number : Nat) (current : Debugger)
    (machine : Machine) : Prop where
  holds : current.machine? = some machine
  running : current.complete = false
  coherent : current.Coherent
  stopped : ∀ stop, current.stopped stop = loaded.stopped stop
  reached : ∃ count, plain.after? count = some machine
  next
    : ∀ later,
        ComesTo current.breakpoints.Awaits (headStart current.breakpoints) machine later
        ↔ Visited loaded.breakpoints.Awaits plain number later

/-- A program that was just loaded. -/
structure Fresh (loaded : Debugger) (plain : Machine) : Prop where
  holds : loaded.machine? = some plain
  running : loaded.complete = false
  quiet : loaded.breakpoints.interrupted = false

theorem fresh_of_load {program : Program} {input : Input} {output : Output}
    (loads : debugger.load program input output = .ok loaded)
    : ∃ plain,
        debugger.configuration.machine? program input output = .ok plain
        ∧ Fresh loaded plain := by
  unfold load at loads
  split at loads
  · contradiction
  · rename_i plain built
    cases loads
    exact ⟨plain, built, rfl, rfl, rfl⟩

theorem stands_start (fresh : Fresh loaded plain) : Stands loaded plain 0 loaded plain where
  holds := fresh.holds
  running := fresh.running
  coherent := by
    intro interrupted
    rw [fresh.quiet] at interrupted
    contradiction
  stopped _ := rfl
  reached := ⟨0, after?_zero plain⟩
  next later := by
    rw [headStart, fresh.quiet]
    constructor
    · intro comes
      exact .first comes
    · intro visited
      cases visited with
      | first comes => exact comes

/-- A session stands at the visit that it has paused at. -/
theorem stands_paused {number : Nat}
    (visited : Visited loaded.breakpoints.Awaits plain number machine)
    : Stands loaded plain (number + 1) (loaded.stopped { machine, interrupted := true })
        machine where
  holds := rfl
  running := rfl
  coherent := coherent_paused visited.isChosen
  stopped _ := rfl
  reached := visited.exists_count
  next later := by
    constructor
    · intro comes
      exact .next visited comes
    · intro visitedLater
      cases visitedLater with
      | next before comes =>
          obtain rfl := visited.unique before
          exact comes

/-- A session comes to the visits in turn, by induction on its pauses. -/
theorem exists_stands (fresh : Fresh loaded plain) {number : Nat}
    (h : PausesAs loaded number current)
    : ∃ machine, Stands loaded plain number current machine := by
  induction h with
  | start => exact ⟨plain, stands_start fresh⟩
  | @pause number before stop _ ends returned incomplete ih =>
      obtain ⟨here, stands⟩ := ih
      obtain ⟨machine, comes, same⟩ :=
        comesTo_of_endsAs stands.coherent stands.holds stands.running ends returned incomplete
      rw [same, stands.stopped]
      exact ⟨machine, stands_paused ((stands.next machine).mp comes)⟩

/-- From where a session stands the next execution comes to the visit of the same number. -/
theorem Stands.pause {number : Nat} {here : Machine}
    (stands : Stands loaded plain number current here)
    (earlier : PausesAs loaded number current)
    (visited : Visited loaded.breakpoints.Awaits plain number machine)
    : PausesAs loaded (number + 1) (loaded.stopped { machine, interrupted := true }) := by
  obtain ⟨count, first⟩ := firstStop_of_comesTo ((stands.next machine).mpr visited)
  have ends := endsAs_of_firstStop stands.coherent stands.holds stands.running first
  rw [← stands.stopped]
  exact .pause earlier ends rfl rfl

/-- A session pauses at every visit, by induction on the visits. -/
theorem pausesAs_of_visited (fresh : Fresh loaded plain) {number : Nat}
    (visited : Visited loaded.breakpoints.Awaits plain number machine)
    : PausesAs loaded (number + 1) (loaded.stopped { machine, interrupted := true }) := by
  induction visited with
  | first comes => exact (stands_start fresh).pause .start (.first comes)
  | next before comes ih => exact (stands_paused before).pause ih (.next before comes)

/-- The pauses of a session are the visits of the plain run. -/
theorem pausesAs_iff (fresh : Fresh loaded plain) {number : Nat}
    : PausesAs loaded (number + 1) current
      ↔ ∃ machine,
          Visited loaded.breakpoints.Awaits plain number machine
          ∧ current = loaded.stopped { machine, interrupted := true } := by
  constructor
  · intro h
    cases h with
    | pause earlier ends returned incomplete =>
        obtain ⟨_, stands⟩ := exists_stands fresh earlier
        obtain ⟨machine, comes, same⟩ :=
          comesTo_of_endsAs stands.coherent stands.holds stands.running ends returned incomplete
        exact ⟨machine, (stands.next machine).mp comes, by rw [same, stands.stopped]⟩
  · intro visiting
    rcases visiting with ⟨machine, visited, rfl⟩
    exact pausesAs_of_visited fresh visited

/-- What the next execution of a session does: it pauses at the next visit, or ends as the
plain run does when there is none.
-/
inductive NextExecution (loaded : Debugger) (plain : Machine) (number : Nat)
    (current : Debugger) : Prop
  | pauses {machine : Machine}
    (visited : Visited loaded.breakpoints.Awaits plain number machine)
    (ends : current.EndsAs { machine, interrupted := true })
  | completes {final : Machine}
    (none : ∀ machine, ¬ Visited loaded.breakpoints.Awaits plain number machine)
    (finishes : plain.FinishesAs final)
    (ends : current.EndsAs { machine := final, complete := true })
  | raises {final : Machine} {fault : Fault}
    (none : ∀ machine, ¬ Visited loaded.breakpoints.Awaits plain number machine)
    (fails : plain.FailsAs final fault)
    (ends : current.EndsAs { machine := final, ending := .failed fault })
  | hangs (none : ∀ machine, ¬ Visited loaded.breakpoints.Awaits plain number machine)
    (forever : plain.RunsForever) (hangs : current.Hangs)

/-- The next execution of a session goes on from where it stands. -/
theorem nextExecution (fresh : Fresh loaded plain) {number : Nat}
    (h : PausesAs loaded number current)
    : NextExecution loaded plain number current := by
  obtain ⟨here, stands⟩ := exists_stands fresh h
  obtain ⟨count, reached⟩ := stands.reached
  have nowhere
      (none
        : ∀ machine,
            ¬ ComesTo current.breakpoints.Awaits (headStart current.breakpoints) here machine)
      (machine : Machine)
      : ¬ Visited loaded.breakpoints.Awaits plain number machine := by
    rw [← stands.next]
    exact none machine
  cases execution stands.coherent stands.holds stands.running with
  | pauses comes ends => exact .pauses ((stands.next _).mp comes) ends
  | completes none finishes ends =>
      exact .completes (nowhere none) (finishes.prepend reached) ends
  | raises none fails ends => exact .raises (nowhere none) (fails.prepend reached) ends
  | hangs none forever hangs => exact .hangs (nowhere none) (forever.prepend reached) hangs

namespace NextExecution

variable {number : Nat}

/-- Where there is a next visit, the next execution pauses at it. -/
theorem endsAs_of_visited (h : NextExecution loaded plain number current)
    (visited : Visited loaded.breakpoints.Awaits plain number machine)
    : current.EndsAs { machine, interrupted := true } := by
  cases h with
  | pauses again ends =>
      obtain rfl := visited.unique again
      exact ends
  | completes none => exact absurd visited (none machine)
  | raises none => exact absurd visited (none machine)
  | hangs none => exact absurd visited (none machine)

variable (none : ∀ machine, ¬ Visited loaded.breakpoints.Awaits plain number machine)

include none

/-- Behind the last visit of a run that finishes the next execution completes. -/
theorem endsAs_of_finishesAs {final : Machine}
    (h : NextExecution loaded plain number current) (finishes : plain.FinishesAs final)
    : current.EndsAs { machine := final, complete := true } := by
  cases h with
  | pauses visited => exact absurd visited (none _)
  | completes _ again ends =>
      obtain rfl := finishes.unique again
      exact ends
  | raises _ fails => exact absurd fails finishes.not_failsAs
  | hangs _ forever => exact absurd forever finishes.not_runsForever

/-- Behind the last visit of a run that fails the next execution raises its fault. -/
theorem endsAs_of_failsAs {final : Machine} {fault : Fault}
    (h : NextExecution loaded plain number current) (fails : plain.FailsAs final fault)
    : current.EndsAs { machine := final, ending := .failed fault } := by
  cases h with
  | pauses visited => exact absurd visited (none _)
  | completes _ finishes => exact absurd fails finishes.not_failsAs
  | raises _ again ends =>
      obtain ⟨rfl, rfl⟩ := fails.unique again
      exact ends
  | hangs _ forever => exact absurd forever fails.not_runsForever

/-- Behind the last visit of a run without end the next execution does not return. -/
theorem hangs_of_runsForever (h : NextExecution loaded plain number current)
    (forever : plain.RunsForever)
    : current.Hangs := by
  cases h with
  | pauses visited => exact absurd visited (none _)
  | completes _ finishes => exact absurd forever finishes.not_runsForever
  | raises _ fails => exact absurd forever fails.not_runsForever
  | hangs _ _ hangs => exact hangs

end NextExecution

/-- The exact stops of executing. From every machine that is loaded and not complete it stops
at the first stop, and does not end when there is none; behind a pause it takes a step at
least. So a session that starts with a load pauses at the visits of the plain run to enabled
breakpoints, each by its number, and the execution behind the last pause ends as that run.
-/
theorem exact_stops (reachable : Reachable debugger)
    : (∀ start,
        debugger.machine? = some start
        → debugger.complete = false
        → (∀ count stop,
            FirstStop debugger.breakpoints start count stop
            → ∀ (α : Type) (hear : α → Notice → α) (heard : α) allowance,
                (count < allowance
                  → (debugger.execute hear allowance heard).state = debugger.stopped stop
                    ∧ (debugger.execute hear allowance heard).ending = stop.ending)
                ∧ (allowance < count
                  → (debugger.execute hear allowance heard).ending = .refused))
          ∧ ((∀ count machine stop,
              start.after? count = some machine
              → ¬ StopsAs debugger.breakpoints count machine stop)
            → debugger.Hangs))
      ∧ (∀ stop later,
          debugger.EndsAs stop
          → stop.ending = .returned
          → stop.complete = false
          → (debugger.stopped stop).EndsAs later
          → later.ending = .returned
          → ∃ count, 1 ≤ count ∧ stop.machine.after? count = some later.machine)
      ∧ ∀ program input output loaded,
          debugger.load program input output = .ok loaded
          → ∃ plain,
              debugger.configuration.machine? program input output = .ok plain
              ∧ (∀ number paused,
                  PausesAs loaded (number + 1) paused
                  ↔ ∃ count machine,
                      plain.after? count = some machine
                      ∧ loaded.breakpoints.Awaits machine
                      ∧ visitsBefore loaded.breakpoints.Awaits plain count = number
                      ∧ paused = loaded.stopped { machine, interrupted := true })
              ∧ ∀ number current,
                  PausesAs loaded number current
                  → NextExecution loaded plain number current := by
  have coherent := reachable.coherent
  refine ⟨?_, ?_, ?_⟩
  · intro start holds running
    constructor
    · intro count stop first α hear heard allowance
      exact execute_of_firstStop coherent holds running first hear heard allowance
    · exact hangs_of_no_stop holds running
  · intro stop later ends returned incomplete endsLater returnedLater
    exact exists_step_behind_pause coherent ends returned incomplete endsLater returnedLater
  · intro program input output loaded loads
    obtain ⟨plain, built, fresh⟩ := fresh_of_load loads
    refine ⟨plain, built, ?_, fun number current => nextExecution fresh⟩
    intro number paused
    rw [pausesAs_iff fresh]
    constructor
    · intro visiting
      rcases visiting with ⟨machine, visited, same⟩
      obtain ⟨count, reached, awaits, before⟩ := visited_iff.mp visited
      exact ⟨count, machine, reached, awaits, before, same⟩
    · intro visiting
      rcases visiting with ⟨count, machine, reached, awaits, before, same⟩
      exact ⟨machine, visited_iff.mpr ⟨count, reached, awaits, before⟩, same⟩

/-- A breakpoint in a loop pauses on the second pass again, when half of the loop is done. -/
theorem exact_stops_in_loop
    : ∃ loaded paused,
        load
            {
              configuration := { tapeSize := 1 }
              breakpoints := { entries := [{ address := 3 }] }
            }
            #[0x2b, 0x2b, 0x5b, 0x2e, 0x2d, 0x5d] .absent .empty
          = .ok loaded
        ∧ PausesAs loaded 2 paused
        ∧ paused.breakpoints.interrupted = true
        ∧ paused.machine?.map (fun machine => (machine.counter, machine.tape.current))
          = some (3, 1) := by
  have adds
      : addBreakpoint { configuration := { tapeSize := 1 } } { address := 3 }
        = .ok
            {
              configuration := { tapeSize := 1 }
              breakpoints := { entries := [{ address := 3 }] }
            } :=
    rfl
  obtain ⟨-, -, sessions⟩ := exact_stops (.add (.fresh { tapeSize := 1 }) adds)
  obtain ⟨plain, built, pauses, -⟩ :=
    sessions #[0x2b, 0x2b, 0x5b, 0x2e, 0x2d, 0x5d] .absent .empty _ rfl
  cases built
  exact
    ⟨_, _, rfl, (pauses 1 _).mpr ⟨6, _, rfl, by decide, by decide, rfl⟩, rfl, by decide⟩

end Brainfuck.Debugger
