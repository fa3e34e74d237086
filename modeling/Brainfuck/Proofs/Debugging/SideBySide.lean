import Brainfuck.Proofs.Debugging.Pauses
import Brainfuck.Proofs.Engines.Agreement
import Brainfuck.Proofs.Engines.Folding
import Mathlib.Logic.ExistsUnique

/-! Sessions of both engines side by side.
When their breakpoints are at reads, writes and starts of counted runs, a session of the
interpreter and one of the virtual machine pause equally often, each time with the same store,
and then end alike.
-/

namespace Brainfuck.Debugger

open Machine

/-- What executing does in two sessions that agree. -/
inductive NextAlike (Agree : Machine → Machine → Prop) (finals : Machine → Machine → Prop)
    (failures : Machine → Fault → Machine → Fault → Prop) (current other : Debugger) : Prop
  | pauses {machine otherMachine : Machine}
    (ends : current.EndsAs { machine, interrupted := true })
    (endsOther : other.EndsAs { machine := otherMachine, interrupted := true })
    (agree : Agree machine otherMachine)
  | completes {final otherFinal : Machine}
    (ends : current.EndsAs { machine := final, complete := true })
    (endsOther : other.EndsAs { machine := otherFinal, complete := true })
    (related : finals final otherFinal)
  | raises {final otherFinal : Machine} {fault otherFault : Fault}
    (ends : current.EndsAs { machine := final, ending := .failed fault })
    (endsOther : other.EndsAs { machine := otherFinal, ending := .failed otherFault })
    (failed : failures final fault otherFinal otherFault)
  | hangs (hangs : current.Hangs) (hangsOther : other.Hangs)

/-- Two sessions pause equally often, at machines that agree, and go on alike. -/
structure SessionsAlike (Agree : Machine → Machine → Prop) (finals : Machine → Machine → Prop)
    (failures : Machine → Fault → Machine → Fault → Prop) (loaded otherLoaded : Debugger)
    : Prop where
  number
    : ∀ number,
        (∃ current, PausesAs loaded number current)
        ↔ ∃ other, PausesAs otherLoaded number other
  paused
    : ∀ {number current other},
        PausesAs loaded (number + 1) current
        → PausesAs otherLoaded (number + 1) other
        → ∃ machine otherMachine,
            current.machine? = some machine
            ∧ other.machine? = some otherMachine
            ∧ Agree machine otherMachine
  next
    : ∀ {number current other},
        PausesAs loaded number current
        → PausesAs otherLoaded number other
        → NextAlike Agree finals failures current other

section Sessions

variable {loaded otherLoaded : Debugger} {plain otherPlain : Machine}
  {Agree : Machine → Machine → Prop} {finals : Machine → Machine → Prop}
  {failures : Machine → Fault → Machine → Fault → Prop}

/-- What executing does in sessions whose plain runs make the same visits and end alike. -/
theorem nextAlike (fresh : Fresh loaded plain) (otherFresh : Fresh otherLoaded otherPlain)
    (visits
      : VisitsAlike loaded.breakpoints.Awaits otherLoaded.breakpoints.Awaits Agree plain
          otherPlain)
    (course : SameCourse plain otherPlain finals failures) {number : Nat}
    {current other : Debugger} (h : PausesAs loaded number current)
    (hOther : PausesAs otherLoaded number other)
    : NextAlike Agree finals failures current other := by
  have nextOther := nextExecution otherFresh hOther
  have noneOther (none : ∀ machine, ¬ Visited loaded.breakpoints.Awaits plain number machine)
      : ∀ machine, ¬ Visited otherLoaded.breakpoints.Awaits otherPlain number machine := by
    intro machine visitedOther
    obtain ⟨_, visited, _⟩ := visits.back visitedOther
    exact none _ visited
  cases nextExecution fresh h with
  | pauses visited ends =>
      obtain ⟨_, visitedOther, agree⟩ := visits.forth visited
      exact .pauses ends (nextOther.endsAs_of_visited visitedOther) agree
  | completes none finishes ends =>
      obtain ⟨_, finishesOther⟩ := course.finish.mp ⟨_, finishes⟩
      exact .completes ends (nextOther.endsAs_of_finishesAs (noneOther none) finishesOther)
        (course.related finishes finishesOther)
  | raises none fails ends =>
      obtain ⟨_, _, failsOther⟩ := course.fail.mp ⟨_, _, fails⟩
      exact .raises ends (nextOther.endsAs_of_failsAs (noneOther none) failsOther)
        (course.failed fails failsOther)
  | hangs none forever hangs =>
      have foreverOther := course.forever.mp forever
      exact .hangs hangs (nextOther.hangs_of_runsForever (noneOther none) foreverOther)

/-- Sessions whose plain runs make the same visits and end alike are alike. -/
theorem sessionsAlike (fresh : Fresh loaded plain) (otherFresh : Fresh otherLoaded otherPlain)
    (visits
      : VisitsAlike loaded.breakpoints.Awaits otherLoaded.breakpoints.Awaits Agree plain
          otherPlain)
    (course : SameCourse plain otherPlain finals failures)
    : SessionsAlike Agree finals failures loaded otherLoaded where
  number number := by
    cases number with
    | zero => exact iff_of_true ⟨_, .start⟩ ⟨_, .start⟩
    | succ number =>
        constructor
        · intro left
          rcases left with ⟨_, pauses⟩
          obtain ⟨_, visited, _⟩ := (pausesAs_iff fresh).mp pauses
          obtain ⟨_, visitedOther, _⟩ := visits.forth visited
          exact ⟨_, pausesAs_of_visited otherFresh visitedOther⟩
        · intro right
          rcases right with ⟨_, pauses⟩
          obtain ⟨_, visitedOther, _⟩ := (pausesAs_iff otherFresh).mp pauses
          obtain ⟨_, visited, _⟩ := visits.back visitedOther
          exact ⟨_, pausesAs_of_visited fresh visited⟩
  paused h hOther := by
    obtain ⟨machine, visited, rfl⟩ := (pausesAs_iff fresh).mp h
    obtain ⟨otherMachine, visitedOther, rfl⟩ := (pausesAs_iff otherFresh).mp hOther
    obtain ⟨_, visitedAgain, agree⟩ := visits.forth visited
    obtain rfl := visitedOther.unique visitedAgain
    exact ⟨machine, otherMachine, rfl, rfl, agree⟩
  next h hOther := nextAlike fresh otherFresh visits course h hOther

end Sessions

-----------------------------------------------------------------------------------------
-- Both engines
-----------------------------------------------------------------------------------------

/-- Both engines are about to execute what is emitted for the same offset, with one store. -/
def PausedAlike (program : Program) (level : Nat) (stops : Nat → Prop)
    (interpreter machine : Machine) : Prop :=
  interpreter.store = machine.store
  ∧ ∃ offset address : Nat,
      interpreter.counter = offset
      ∧ machine.counter = address
      ∧ stops offset
      ∧ program.EmittedAt level offset address

section Engines

variable {program : Program} {list unfolded folded : Array Instruction} {stops : Nat → Prop}
  {store : Store}

/-- Engines that have passed the same commands pause at the same one. -/
theorem pausedAlike_of_abreast (codes : Unfolded program list)
    (allowed : ∀ offset, stops offset → program.StopOffset offset)
    {interpreter machine : Machine} (awaits : Awaiting stops interpreter)
    (h : Abreast program list interpreter machine)
    : PausedAlike program 0 stops interpreter machine := by
  obtain ⟨split, rfl, rfl, -⟩ := h
  rename_i passed left store metrics codeMetrics
  obtain ⟨_, offset, same, stop⟩ := awaits
  obtain rfl := Int.ofNat_inj.mp same
  obtain ⟨command, found, acts⟩ := (allowed _ stop).exists_command
  cases left with
  | nil =>
      rw [List.append_nil] at split
      rw [← program.commandsOf_singleUnits, split, List.getElem?_eq_none (by simp)] at found
      contradiction
  | cons single left =>
      obtain rfl := Option.some.inj (found.symm.trans (Program.commands_at split))
      have visible : single.command ≠ .comment := by
        intro comment
        simp [comment, Command.isCounted] at acts
      have parts
          : program.pieces 0
            = passed.flatMap SourceRun.pieces ++ single :: left.flatMap SourceRun.pieces :=
        Program.pieces_split split visible
      exact ⟨rfl, _, _, rfl, rfl, stop,
        (Program.emittedAt_iff codes.matched parts).mpr (Program.offset_at split)⟩

/-- Folding keeps the offset that an instruction is emitted for. -/
def FoldedAlike (program : Program) (machine foldedMachine : Machine) : Prop :=
  machine.store = foldedMachine.store
  ∧ ∃ address foldedAddress : Nat,
      machine.counter = address
      ∧ foldedMachine.counter = foldedAddress
      ∧ ∀ offset, program.EmittedAt 0 offset address → program.EmittedAt 1 offset foldedAddress

/-- Codes that have passed the same pieces are in front of the same one. -/
theorem foldedAlike_of_inStep (codes : BothCodes program unfolded folded)
    {addresses : Nat → Prop} {start machine foldedMachine : Machine}
    (awaits : Awaiting addresses foldedMachine)
    (h : InStep program unfolded folded start machine foldedMachine)
    : FoldedAlike program machine foldedMachine := by
  obtain ⟨split, rfl, rfl, -, -⟩ := h
  rename_i passed left store metrics foldedMetrics steps
  refine ⟨rfl, _, _, rfl, rfl, ?_⟩
  intro offset emitted
  cases left with
  | nil =>
      have foldedSize := codes.folded.length_eq
      rw [split, List.append_nil, Array.length_toList] at foldedSize
      have done : (placed (.instructions folded) passed.length store foldedMetrics).finished = true :=
        finished_placed.mpr (Nat.le_of_eq foldedSize)
      exact absurd awaits (not_awaiting_of_finished done)
  | cons piece left =>
      have member : piece ∈ foldedPieces program := by simp [split]
      have positive : 0 < piece.count.toNat := by
        have positive := (of_mem_foldedPieces member).2
        omega
      obtain ⟨before, behind, parts, length⟩ := split_singles split positive
      rw [Nat.add_zero] at length
      rw [← length, Program.emittedAt_iff codes.matched parts] at emitted
      have folds : program.pieces 1 = passed ++ piece :: left := split
      exact (Program.emittedAt_iff codes.matched folds).mpr (by simpa using emitted)

/-- Machines that hold the same store. -/
def SameStore (left right : Machine) : Prop :=
  left.store = right.store

/-- Faults of the same kind, whatever their machines. -/
def SameKind (_ : Machine) (fault : Fault) (_ : Machine) (other : Fault) : Prop :=
  fault.kind = other.kind

/-- The interpreter and a virtual machine make the same visits and end alike. -/
structure EnginesAlike (program : Program) (level : Nat) (stops : Nat → Prop)
    (interpreter machine : Machine) : Prop where
  visits
    : VisitsAlike (Awaiting stops) (Awaiting (program.EmittedFor level stops))
        (PausedAlike program level stops) interpreter machine
  course : SameCourse interpreter machine SameStore SameKind

/-- The virtual machine on unfolded code makes the visits of the interpreter. -/
theorem enginesAlike_unfolded (codes : Unfolded program list)
    (allowed : ∀ offset, stops offset → program.StopOffset offset) (store : Store)
    : EnginesAlike program 0 stops (placed (.source program) 0 store {})
        (placed (.instructions list) 0 store {}) := by
  have start := Abreast.start program list store
  have visits := visitsAlike_of_pace (Abreast.keepsPace codes allowed) start
  have course := sameCourse_of_pace (Abreast.proceeds codes) start
  refine ⟨visits.mono ?_, course.mono ?_ ?_⟩
  · intro interpreter machine awaits _ abreast
    exact pausedAlike_of_abreast codes allowed awaits abreast
  · intro final other agree
    exact agree.1
  · intro final fault other otherFault agree
    exact congrArg Fault.kind agree.1

/-- The virtual machine on folded code makes the visits of the one on unfolded code. -/
theorem enginesAlike_folded (codes : BothCodes program unfolded folded)
    (allowed : ∀ offset, stops offset → program.StopOffset offset)
    (wellFormed : store.tape.WellFormed)
    (h
      : EnginesAlike program 0 stops (placed (.source program) 0 store {})
          (placed (.instructions unfolded) 0 store {}))
    : EnginesAlike program 1 stops (placed (.source program) 0 store {})
        (placed (.instructions folded) 0 store {}) := by
  have start := InStep.start program unfolded folded wellFormed
  have visits := visitsAlike_of_pace (InStep.keepsPace codes allowed) start
  have course := sameCourse_of_pace (InStep.stays codes) start
  refine ⟨(h.visits.trans visits).mono ?_, (h.course.trans course).mono ?_ ?_⟩
  · intro interpreter foldedMachine _ awaits agree
    rcases agree with ⟨between, paused, inStep⟩
    obtain ⟨same, offset, address, counter, here, stop, emitted⟩ := paused
    obtain ⟨sameFolded, place, foldedAddress, there, foldedCounter, keeps⟩ :=
      foldedAlike_of_inStep codes awaits inStep
    obtain rfl := Int.ofNat_inj.mp (here.symm.trans there)
    exact ⟨same.trans sameFolded, offset, foldedAddress, counter, foldedCounter, stop,
      keeps offset emitted⟩
  · intro final other agree
    rcases agree with ⟨between, same, sameBehind⟩
    exact Eq.trans same sameBehind
  · intro final fault other otherFault agree
    rcases agree with ⟨between, betweenFault, same, failure⟩
    exact Eq.trans same failure.1.symm

/-- Both engines make the same visits at every level. -/
theorem exists_enginesAlike (matched : program.Matched) (level : Nat)
    (allowed : ∀ offset, stops offset → program.StopOffset offset)
    (wellFormed : store.tape.WellFormed)
    : ∃ list,
        program.compile level = .ok list
        ∧ EnginesAlike program level stops (placed (.source program) 0 store {})
            (placed (.instructions list) 0 store {}) := by
  obtain ⟨list, compiled, laidOut⟩ := program.exists_laidOut matched 0
  have alike := enginesAlike_unfolded ⟨matched, laidOut⟩ allowed store
  by_cases unfolds : level = 0
  · subst unfolds
    exact ⟨list, compiled, alike⟩
  · have folds : 1 ≤ level := Nat.pos_of_ne_zero unfolds
    obtain ⟨foldedList, foldedCompiled, foldedLaidOut⟩ := program.exists_laidOut matched level
    rw [← singles_foldedPieces] at laidOut
    rw [Program.pieces, if_neg unfolds] at foldedLaidOut
    obtain ⟨visits, course⟩ :=
      enginesAlike_folded ⟨laidOut, foldedLaidOut⟩ allowed wellFormed alike
    refine ⟨foldedList, foldedCompiled, ?_, course⟩
    rw [Program.emittedFor_of_folds folds]
    refine visits.mono ?_
    intro interpreter machine _ _ paused
    rcases paused with ⟨same, offset, address, counter, codeCounter, stop, emitted⟩
    refine ⟨same, offset, address, counter, codeCounter, stop, ?_⟩
    rw [Program.emittedAt_of_folds folds]
    exact emitted

end Engines

/-- Breakpoints that are enabled at these addresses await machines there. -/
theorem awaits_eq {breakpoints : Breakpoints} {addresses : Nat → Prop}
    (enabled
      : ∀ address,
          breakpoints.isEnabled address = true
          ↔ ∃ place : Nat, address = place ∧ addresses place)
    : breakpoints.Awaits = Awaiting addresses := by
  funext machine
  rw [Breakpoints.Awaits, Awaiting, enabled]

/-- A single breakpoint is enabled at its own address only. -/
theorem isEnabled_single (place address : Int)
    : Breakpoints.isEnabled { entries := [{ address := place }] } address = true
      ↔ address = place := by
  by_cases same : place = address <;>
    simp [Breakpoints.isEnabled, Breakpoints.find?, same, eq_comm]

/-- Breakpoint pauses agree across engines. With breakpoints at any reads, writes and starts of
counted runs, each of which has one address at every level, the interpreter and the virtual
machine pause equally often, at the same offsets with the same store, and then both complete
with the same store, both raise the same kind of fault or both do not return.
-/
theorem pauses_agree (configuration : Configuration) (level : Nat) {program : Program}
    (matched : program.Matched) (input : Input) (output : Output) {stops : Nat → Prop}
    (allowed : ∀ offset, stops offset → program.StopOffset offset)
    {breakpoints codeBreakpoints : Breakpoints}
    (enabled
      : ∀ address,
          breakpoints.isEnabled address = true
          ↔ ∃ offset : Nat, address = offset ∧ stops offset)
    (codeEnabled
      : ∀ address,
          codeBreakpoints.isEnabled address = true
          ↔ ∃ place : Nat, address = place ∧ program.EmittedFor level stops place)
    : (∀ offset, stops offset → ∃! address, program.EmittedAt level offset address)
      ∧ ∃ loaded codeLoaded,
          load { configuration := { configuration with engine := .interpreter }, breakpoints }
              program input output
            = .ok loaded
          ∧ load
              {
                configuration := { configuration with engine := .virtualMachine, level }
                breakpoints := codeBreakpoints
              }
              program input output
            = .ok codeLoaded
          ∧ SessionsAlike (PausedAlike program level stops) SameStore SameKind loaded
              codeLoaded := by
  constructor
  · intro offset stop
    obtain ⟨address, emitted⟩ := (allowed offset stop).exists_emittedAt matched level
    exact ⟨address, emitted, fun other also => also.address_unique emitted⟩
  · let fresh := Store.fresh configuration input output
    have wellFormed : fresh.tape.WellFormed :=
      Tape.wellFormed_blank configuration.tapeSize_pos _
    obtain ⟨list, compiled, visits, course⟩ :=
      exists_enginesAlike matched level allowed wellFormed
    rw [← awaits_eq enabled, ← awaits_eq codeEnabled] at visits
    refine
      ⟨
        {
          configuration := { configuration with engine := .interpreter }
          breakpoints := breakpoints.clearInterrupt
          machine? := some (placed (.source program) 0 fresh {})
        },
        {
          configuration := { configuration with engine := .virtualMachine, level }
          breakpoints := codeBreakpoints.clearInterrupt
          machine? := some (placed (.instructions list) 0 fresh {})
        }, ?_, ?_, ?_⟩
    · simp only [load, machine?_eq]
      rfl
    · simp only [load, machine?_eq, Configuration.code?, compiled]
      rfl
    · exact sessionsAlike ⟨rfl, rfl, rfl⟩ ⟨rfl, rfl, rfl⟩ visits course

/-- A write in a loop behind a folded run and a comment, which has another address than offset.
-/
theorem pauses_agree_in_loop
    : ∃ loaded codeLoaded,
        load
            {
              configuration := { tapeSize := 1 }
              breakpoints := { entries := [{ address := 4 }] }
            }
            #[0x2b, 0x2b, 0x20, 0x5b, 0x2e, 0x2d, 0x5d] .absent .empty
          = .ok loaded
        ∧ load
            {
              configuration := { engine := .virtualMachine, tapeSize := 1, level := 1 }
              breakpoints := { entries := [{ address := 2 }] }
            }
            #[0x2b, 0x2b, 0x20, 0x5b, 0x2e, 0x2d, 0x5d] .absent .empty
          = .ok codeLoaded
        ∧ SessionsAlike
            (PausedAlike #[0x2b, 0x2b, 0x20, 0x5b, 0x2e, 0x2d, 0x5d] 1 (· = 4)) SameStore
            SameKind loaded codeLoaded := by
  have emitted : Program.EmittedAt #[0x2b, 0x2b, 0x20, 0x5b, 0x2e, 0x2d, 0x5d] 1 4 2 :=
    ⟨
      [
        { offset := 0, byte := 0x2b, count := 2 },
        { offset := 3, byte := 0x5b, count := 1 }
      ],
      { offset := 4, byte := 0x2e, count := 1 },
      [
        { offset := 5, byte := 0x2d, count := 1 },
        { offset := 6, byte := 0x5d, count := 1 }
      ],
      _, rfl, rfl, rfl, rfl⟩
  refine
    (pauses_agree { tapeSize := 1 } 1 (by decide) .absent .empty ?_ ?_ ?_).2
  · intro offset stop
    subst stop
    exact .channel rfl (Or.inl rfl)
  · intro address
    rw [isEnabled_single]
    constructor
    · intro same
      exact ⟨4, same, rfl⟩
    · intro stopping
      rcases stopping with ⟨offset, rfl, rfl⟩
      rfl
  · intro address
    rw [isEnabled_single]
    constructor
    · intro same
      exact ⟨2, same, 4, rfl, emitted⟩
    · intro stopping
      rcases stopping with ⟨place, rfl, offset, rfl, also⟩
      rw [also.address_unique emitted]
      rfl

end Brainfuck.Debugger
