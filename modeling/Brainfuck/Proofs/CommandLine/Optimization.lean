import Brainfuck.CommandLine.Running
import Brainfuck.Proofs.Engines.Courses

/-! Optimization on the command line.
An optimization level makes the tool build another machine for the same program, with the cell
policy and the tape of the flavor. Both machines take one course, so the answers differ at most
in what is logged.
-/

namespace Brainfuck

-----------------------------------------------------------------------------------------
-- Configurations
-----------------------------------------------------------------------------------------

namespace Configuration

variable {tapeSize level : Int}

/-- There is no configuration without a cell. -/
theorem ofOptions?_of_nonpositive (flavor : Flavor) (nonpositive : tapeSize ≤ 0)
    (level? : Option Int)
    : ofOptions? flavor tapeSize level? = .error (.tapeSizeNotPositive tapeSize) := by
  have none : ¬ 0 < tapeSize := by omega
  cases flavor <;> simp [ofOptions?, forFlavor?, make?, none]

/-- A level changes the engine of a flavor, and neither its cell policy nor its tape size. -/
theorem exists_ofOptions? (flavor : Flavor) (positive : 0 < tapeSize) (nonnegative : 0 ≤ level)
    : ∃ configuration,
        ofOptions? flavor tapeSize none = .ok configuration
        ∧ ofOptions? flavor tapeSize (some level)
          = .ok { configuration with engine := .virtualMachine, level := level.toNat } := by
  have known : ¬ level < 0 := by omega
  have whole : ((tapeSize.toNat : Nat) : Int) = tapeSize := Int.toNat_of_nonneg (by omega)
  cases flavor <;>
    exact ⟨_, by simp only [ofOptions?, forFlavor?, make?, positive, optimizationLevel?]; rfl,
      by simp [ofOptions?, forFlavor?, make?, positive, optimizationLevel?, known, whole]⟩

end Configuration

namespace CommandLine

-----------------------------------------------------------------------------------------
-- Command lines
-----------------------------------------------------------------------------------------

namespace Settings

variable {settings changed assigned : Settings}

/-- Other options leave the level alone and do not look at it. -/
theorem assign_of_level {name : OptionName} {given : Given String} (other : name ≠ .optimize)
    (h : settings.assign name given = .ok changed)
    : changed.level? = settings.level?
      ∧ ∀ level?, { settings with level? }.assign name given = .ok { changed with level? } := by
  cases name with
  | optimize => contradiction
  | help => cases h
  | flavor =>
      cases value : flavorOf given <;> simp [assign, value, Except.map] at h ⊢
      simp [← h]
  | tapeSize =>
      cases value : integerOf .tapeSize given <;> simp [assign, value, Except.map] at h ⊢
      simp [← h]
  | breakAt =>
      cases value : integerOf .breakAt given <;> simp [assign, value, Except.map] at h ⊢
      simp [← h]
  | input | metrics | debug | verbose =>
      cases h
      exact ⟨rfl, fun _ => rfl⟩

/-- Settings that keep no level were given none, and with a level in front they keep that one,
by induction on the occurrences.
-/
theorem assignAll_of_level {occurrences : List Occurrence}
    (h : settings.assignAll occurrences = .ok assigned) (unoptimized : assigned.level? = none)
    : settings.level? = none
      ∧ ∀ level?,
          { settings with level? }.assignAll occurrences = .ok { assigned with level? } := by
  induction occurrences generalizing settings with
  | nil =>
      cases h
      exact ⟨unoptimized, fun _ => rfl⟩
  | cons occurrence rest ih =>
      cases occurrence with
      | file name => exact ih h
      | option name given =>
          rw [assignAll] at h
          cases first : settings.assign name given with
          | error stop => simp [first] at h
          | ok changed =>
              simp only [first] at h
              obtain ⟨noLevel, levels⟩ := ih h
              by_cases optimizes : name = .optimize
              · subst optimizes
                cases value : integerOf .optimize given <;>
                  simp [assign, value, Except.map] at first
                simp [← first] at noLevel
              · obtain ⟨same, others⟩ := assign_of_level optimizes first
                refine ⟨same ▸ noLevel, ?_⟩
                intro level?
                rw [assignAll, others level?]
                exact levels level?

/-- Settings come from a reading without a misuse that gives a file and nothing unknown. -/
theorem ofReading?_eq_ok_iff {reading : Reading}
    : ofReading? reading = .ok settings
      ↔ ({} : Settings).assignAll reading.occurrences = .ok settings
        ∧ reading.fault? = none
        ∧ reading.occurrences.any isFile = true
        ∧ reading.unrecognized = [] := by
  unfold ofReading?
  cases ({} : Settings).assignAll reading.occurrences with
  | error stop => simp
  | ok assigned =>
      cases reading.fault? with
      | some fault => simp
      | none =>
          cases reading.occurrences.any isFile <;> cases reading.unrecognized <;> simp

/-- An argument that does not start with a dash is a word. -/
theorem ofArgument_of_undashed (options : List OptionName) {word : String}
    (undashed : word.toList.head? ≠ some '-')
    : Token.ofArgument options word = .ok (.word word) := by
  simp only [Token.ofArgument, undashed, ne_eq, not_false_eq_true, if_true]

/-- The reading of a command line with an optimization level in front. -/
theorem ofArguments_cons_optimize {arguments : List String} {word : String}
    (undashed : word.toList.head? ≠ some '-')
    (read : (Reading.ofArguments runOptions arguments).fault? = none)
    : Reading.ofArguments runOptions ("-O" :: word :: arguments)
      = (Reading.ofArguments runOptions arguments).give [.option .optimize (.value word)] := by
  have separates : word ≠ "--" := by
    rintro rfl
    exact undashed rfl
  have option
      : Token.ofArgument runOptions "-O"
        = .ok (.option { name := .optimize, spelling := "-O" }) := by
    decide
  cases formed : Token.ofArguments runOptions arguments with
  | error fault => simp [Reading.ofArguments, formed] at read
  | ok tokens =>
      have all
          : Token.ofArguments runOptions ("-O" :: word :: arguments)
            = .ok (.option { name := .optimize, spelling := "-O" } :: .word word :: tokens) := by
        simp [Token.ofArguments, separates, option, ofArgument_of_undashed _ undashed, formed]
      simp only [Reading.ofArguments, all, formed]
      rfl

/-- An optimization level in front of a command line without one gives the same settings with
this level.
-/
theorem ofArguments?_cons_optimize {arguments : List String} {word : String} {level : Int}
    (parsed : ofArguments? runOptions arguments = .ok settings)
    (unoptimized : settings.level? = none) (number : Text.readInteger word = .ok level)
    (undashed : word.toList.head? ≠ some '-')
    : ofArguments? runOptions ("-O" :: word :: arguments)
      = .ok { settings with level? := some (.value level) } := by
  obtain ⟨assigned, read, file, known⟩ := ofReading?_eq_ok_iff.mp parsed
  obtain ⟨_, levels⟩ := assignAll_of_level assigned unoptimized
  rw [ofArguments?, ofArguments_cons_optimize undashed read, ofReading?_eq_ok_iff]
  refine ⟨?_, read, ?_, known⟩
  · have first
        : ({} : Settings).assign .optimize (.value word)
          = .ok { level? := some (.value level) } := by
      simp [assign, integerOf, number, Except.map]
    simp only [Reading.give, List.cons_append, List.nil_append, assignAll, first]
    exact levels _
  · simpa [Reading.give, isFile] using file

end Settings

-----------------------------------------------------------------------------------------
-- Answers
-----------------------------------------------------------------------------------------

/-- What the tool that runs answers to a command line, when it may take enough steps. -/
def Answers (surroundings : Surroundings) (arguments : List String) (answer : Answer) : Prop :=
  ∃ allowance, run? allowance surroundings arguments = some (.ok answer)

/-- An answer tells how the run of a machine has ended, with all bytes that were written. -/
inductive Reports (machine : Machine) (answer : Answer) : Prop
  | finished {final : Machine} (finishes : machine.FinishesAs final)
    (ending : answer.ending = .exit 0) (written : answer.standardOutput = final.output.bytes)
  | failed {final : Machine} {fault : Fault} (fails : machine.FailsAs final fault)
    (reported : fault.kind.isReported = true) (ending : answer.ending = .exit 1)
    (written : answer.standardOutput = final.output.bytes)

/-- Machines whose courses are alike are reported alike. -/
theorem Reports.alike {machine other : Machine} {answer otherAnswer : Answer}
    (course : machine.CourseAlike other) (h : Reports machine answer)
    (hOther : Reports other otherAnswer)
    : answer.ending = otherAnswer.ending
      ∧ answer.standardOutput = otherAnswer.standardOutput := by
  cases h with
  | finished finishes ending written =>
      cases hOther with
      | finished finishesOther endingOther writtenOther =>
          have wrote := congrArg Output.bytes (course.related finishes finishesOther)
          exact ⟨ending.trans endingOther.symm, written.trans (wrote.trans writtenOther.symm)⟩
      | failed failsOther =>
          obtain ⟨_, _, fails⟩ := course.fail.mpr ⟨_, _, failsOther⟩
          exact absurd fails finishes.not_failsAs
  | failed fails reported ending written =>
      cases hOther with
      | finished finishesOther =>
          obtain ⟨_, finishes⟩ := course.finish.mpr ⟨_, finishesOther⟩
          exact absurd fails finishes.not_failsAs
      | failed failsOther _ endingOther writtenOther =>
          have wrote := congrArg Output.bytes (course.failed fails failsOther).output
          exact ⟨ending.trans endingOther.symm, written.trans (wrote.trans writtenOther.symm)⟩

/-- A machine whose course is that of another one fails for reported reasons only. -/
theorem isReported_of_failsAs {machine other : Machine} (course : machine.CourseAlike other)
    {final : Machine} {fault : Fault} (fails : machine.FailsAs final fault)
    : fault.kind.isReported = true := by
  obtain ⟨_, _, failsOther⟩ := course.fail.mp ⟨_, _, fails⟩
  rcases (course.failed fails failsOther).cause with kind | kind <;> rw [kind] <;> rfl

section Runs

variable {settings : Settings} {configuration : Configuration} {program : Program}
  {input : Array UInt8} {machine : Machine}

/-- A run without a configuration is answered at once. -/
theorem runProgram?_of_refused {fault : Fault} (refused : settings.configuration? = .error fault)
    (reported : fault.kind.isReported = true) (allowance : Nat)
    : ∃ answer,
        runProgram? allowance settings program input = some answer
        ∧ answer.ending = .exit 1
        ∧ answer.standardOutput = #[] := by
  simp [runProgram?, refused, failedRun, reported]

/-- What is answered is how the run ends. -/
theorem reports_of_runProgram? (configured : settings.configuration? = .ok configuration)
    (built : configuration.machine? program (.stream input.toList) .empty = .ok machine)
    (reported
      : ∀ {final fault}, machine.FailsAs final fault → fault.kind.isReported = true)
    {allowance : Nat} {answer : Answer}
    (answered : runProgram? allowance settings program input = some answer)
    : Reports machine answer := by
  simp only [runProgram?, configured, built] at answered
  split at answered
  · contradiction
  · rename_i fault failed
    have fails : machine.FailsAs _ fault := ⟨allowance, rfl, failed⟩
    have isReported := reported fails
    simp only [failedRun, isReported, if_true, Option.some.injEq] at answered
    subst answered
    exact .failed fails isReported rfl rfl
  · rename_i returned
    cases answered
    exact .finished ⟨allowance, rfl, returned⟩ rfl rfl

/-- There is an answer unless the run goes on for ever. -/
theorem exists_answer_iff (configured : settings.configuration? = .ok configuration)
    (built : configuration.machine? program (.stream input.toList) .empty = .ok machine)
    : (∃ answer allowance, runProgram? allowance settings program input = some answer)
      ↔ ¬ machine.RunsForever := by
  constructor
  · rintro ⟨answer, allowance, answered⟩ forever
    simp [runProgram?, configured, built, forever allowance] at answered
  · intro ends
    obtain ⟨allowance, ended⟩ := Classical.not_forall.mp ends
    cases ending : (machine.runSilently allowance).ending with
    | refused => contradiction
    | returned | failed fault =>
        exact ⟨_, allowance, by simp only [runProgram?, configured, built, ending]; rfl⟩

end Runs

section CommandLines

variable {surroundings : Surroundings} {arguments : List String} {settings : Settings}
  {program : Program} {bytes? : Option (Array UInt8)}

/-- The tool that runs answers what the run of the program answers. -/
theorem answers_iff (parsed : Settings.ofArguments? Settings.runOptions arguments = .ok settings)
    (runs : settings.debugs = false)
    (opened : openFiles surroundings settings = .ok (program, bytes?)) (answer : Answer)
    : Answers surroundings arguments answer
      ↔ ∃ allowance,
          runProgram? allowance settings program (bytes?.getD surroundings.standardInput)
          = some answer := by
  simp [Answers, run?, parsed, runs, runUnder?, opened]

/-- Without a configuration the tool answers at once, and always the same. -/
theorem answers_of_refused
    (parsed : Settings.ofArguments? Settings.runOptions arguments = .ok settings)
    (runs : settings.debugs = false)
    (opened : openFiles surroundings settings = .ok (program, bytes?)) {fault : Fault}
    (refused : settings.configuration? = .error fault)
    (reported : fault.kind.isReported = true)
    : (∃ answer, Answers surroundings arguments answer)
      ∧ ∀ answer,
          Answers surroundings arguments answer
          → answer.ending = .exit 1 ∧ answer.standardOutput = #[] := by
  constructor
  · obtain ⟨answer, answered, _⟩ := runProgram?_of_refused refused reported 0
    exact ⟨answer, (answers_iff parsed runs opened answer).mpr ⟨0, answered⟩⟩
  · intro answer answers
    obtain ⟨allowance, answered⟩ := (answers_iff parsed runs opened answer).mp answers
    obtain ⟨other, same, ending, written⟩ := runProgram?_of_refused refused reported allowance
    obtain rfl := Option.some.inj (answered.symm.trans same)
    exact ⟨ending, written⟩

/-- With a configuration the tool answers how the run of its machine ends. -/
theorem answers_of_built
    (parsed : Settings.ofArguments? Settings.runOptions arguments = .ok settings)
    (runs : settings.debugs = false)
    (opened : openFiles surroundings settings = .ok (program, bytes?))
    {configuration : Configuration} (configured : settings.configuration? = .ok configuration)
    {machine : Machine}
    (built
      : configuration.machine? program
            (.stream (bytes?.getD surroundings.standardInput).toList) .empty
        = .ok machine)
    (reported
      : ∀ {final fault}, machine.FailsAs final fault → fault.kind.isReported = true)
    : ((∃ answer, Answers surroundings arguments answer) ↔ ¬ machine.RunsForever)
      ∧ ∀ answer, Answers surroundings arguments answer → Reports machine answer := by
  constructor
  · rw [← exists_answer_iff configured built]
    exact exists_congr (answers_iff parsed runs opened)
  · intro answer answers
    obtain ⟨_, answered⟩ := (answers_iff parsed runs opened answer).mp answers
    exact reports_of_runProgram? configured built reported answered

end CommandLines

/-- Two command lines are answered alike: both have an answer or neither has, and answers have
the same status and the same bytes on standard output.
-/
structure AnsweredAlike (surroundings : Surroundings) (arguments others : List String) : Prop
    where
  ends
    : (∃ answer, Answers surroundings arguments answer)
      ↔ ∃ answer, Answers surroundings others answer
  same
    : ∀ {answer other},
        Answers surroundings arguments answer
        → Answers surroundings others other
        → answer.ending = other.ending ∧ answer.standardOutput = other.standardOutput

section CommandLines

variable {surroundings : Surroundings} {arguments others : List String}
  {settings otherSettings : Settings} {program : Program} {bytes? : Option (Array UInt8)}

/-- Without a configuration both command lines are answered at once. -/
theorem answeredAlike_of_refused
    (parsed : Settings.ofArguments? Settings.runOptions arguments = .ok settings)
    (parsedOther : Settings.ofArguments? Settings.runOptions others = .ok otherSettings)
    (runs : settings.debugs = false) (runsOther : otherSettings.debugs = false)
    (opened : openFiles surroundings settings = .ok (program, bytes?))
    (openedOther : openFiles surroundings otherSettings = .ok (program, bytes?))
    {fault : Fault} (refused : settings.configuration? = .error fault)
    (refusedOther : otherSettings.configuration? = .error fault)
    (reported : fault.kind.isReported = true)
    : AnsweredAlike surroundings arguments others := by
  obtain ⟨ends, stops⟩ := answers_of_refused parsed runs opened refused reported
  obtain ⟨endsOther, stopsOther⟩ :=
    answers_of_refused parsedOther runsOther openedOther refusedOther reported
  refine ⟨iff_of_true ends endsOther, ?_⟩
  intro answer other answers answersOther
  obtain ⟨ending, written⟩ := stops answer answers
  obtain ⟨endingOther, writtenOther⟩ := stopsOther other answersOther
  exact ⟨ending.trans endingOther.symm, written.trans writtenOther.symm⟩

/-- Command lines are answered alike when the machines that they build take one course. -/
theorem answeredAlike_of_built
    (parsed : Settings.ofArguments? Settings.runOptions arguments = .ok settings)
    (parsedOther : Settings.ofArguments? Settings.runOptions others = .ok otherSettings)
    (runs : settings.debugs = false) (runsOther : otherSettings.debugs = false)
    (opened : openFiles surroundings settings = .ok (program, bytes?))
    (openedOther : openFiles surroundings otherSettings = .ok (program, bytes?))
    {configuration otherConfiguration : Configuration}
    (configured : settings.configuration? = .ok configuration)
    (configuredOther : otherSettings.configuration? = .ok otherConfiguration)
    {machine otherMachine : Machine}
    (built
      : configuration.machine? program
            (.stream (bytes?.getD surroundings.standardInput).toList) .empty
        = .ok machine)
    (builtOther
      : otherConfiguration.machine? program
            (.stream (bytes?.getD surroundings.standardInput).toList) .empty
        = .ok otherMachine)
    (course : machine.CourseAlike otherMachine)
    : AnsweredAlike surroundings arguments others := by
  obtain ⟨ends, reports⟩ :=
    answers_of_built parsed runs opened configured built (isReported_of_failsAs course)
  obtain ⟨endsOther, reportsOther⟩ :=
    answers_of_built parsedOther runsOther openedOther configuredOther builtOther
      (isReported_of_failsAs course.symm)
  constructor
  · rw [ends, endsOther, course.forever]
  · intro answer other answers answersOther
    exact (reports answer answers).alike course (reportsOther other answersOther)

end CommandLines

/-- The optimization level changes nothing that a program does on the command line. Whatever
the flavor, the size of the tape and the input, the tool with a level and the tool without one
answer both or neither, with the same status and the same bytes: all bytes when the run
finishes, and those written before the failure when it fails. The level keeps the cell policy
and the tape of the flavor.
-/
theorem optimization_changes_no_answer {arguments : List String} {settings : Settings}
    (parsed : Settings.ofArguments? Settings.runOptions arguments = .ok settings)
    (unoptimized : settings.level? = none) (runs : settings.debugs = false) {flavor : Flavor}
    (flavored : settings.flavor = .value flavor) {tapeSize : Int}
    (sized : settings.tapeSize = .value tapeSize) {level : Int} (nonnegative : 0 ≤ level)
    {surroundings : Surroundings} {program : Program} {bytes? : Option (Array UInt8)}
    (opened : openFiles surroundings settings = .ok (program, bytes?))
    (matched : program.Matched)
    : (∀ word,
        Text.readInteger word = .ok level
        → word.toList.head? ≠ some '-'
        → Settings.ofArguments? Settings.runOptions ("-O" :: word :: arguments)
          = .ok { settings with level? := some (.value level) })
      ∧ (∀ optimized,
          Settings.ofArguments? Settings.runOptions optimized
            = .ok { settings with level? := some (.value level) }
          → AnsweredAlike surroundings arguments optimized)
      ∧ (tapeSize ≤ 0
        → (∃ answer, Answers surroundings arguments answer)
          ∧ ∀ answer,
              Answers surroundings arguments answer
              → answer.ending = .exit 1 ∧ answer.standardOutput = #[])
      ∧ (0 < tapeSize
        → ∃ configuration machine,
            settings.configuration? = .ok configuration
            ∧ { settings with level? := some (.value level) }.configuration?
              = .ok { configuration with engine := .virtualMachine, level := level.toNat }
            ∧ configuration.machine? program
                  (.stream (bytes?.getD surroundings.standardInput).toList) .empty
              = .ok machine
            ∧ ((∃ answer, Answers surroundings arguments answer) ↔ ¬ machine.RunsForever)
            ∧ ∀ answer, Answers surroundings arguments answer → Reports machine answer) := by
  have plain : settings.configuration? = Configuration.ofOptions? flavor tapeSize none := by
    simp only [Settings.configuration?, flavored, sized, unoptimized]
  have leveled
      : { settings with level? := some (.value level) }.configuration?
        = Configuration.ofOptions? flavor tapeSize (some level) := by
    simp only [Settings.configuration?, flavored, sized]
  have openedAgain
      : openFiles surroundings { settings with level? := some (.value level) }
        = .ok (program, bytes?) :=
    opened
  refine ⟨?_, ?_⟩
  · intro word number undashed
    exact Settings.ofArguments?_cons_optimize parsed unoptimized number undashed
  by_cases positive : 0 < tapeSize
  · obtain ⟨configuration, configured, optimized⟩ :=
      Configuration.exists_ofOptions? flavor positive nonnegative
    rw [← plain] at configured
    rw [← leveled] at optimized
    obtain ⟨machine, other, built, builtOther, course⟩ :=
      Configuration.exists_courseAlike configuration
        { configuration with engine := .virtualMachine, level := level.toNat } rfl rfl matched
        (.stream (bytes?.getD surroundings.standardInput).toList) .empty
    obtain ⟨ends, reports⟩ :=
      answers_of_built parsed runs opened configured built (isReported_of_failsAs course)
    refine ⟨?_, fun nonpositive => absurd positive (by omega), fun _ => ?_⟩
    · intro others parsedOther
      exact answeredAlike_of_built parsed parsedOther runs runs opened openedAgain configured
        optimized built builtOther course
    · exact ⟨configuration, machine, configured, optimized, built, ends, reports⟩
  · have refused := Configuration.ofOptions?_of_nonpositive flavor (Int.not_lt.mp positive)
    have refusedPlain := plain.trans (refused none)
    refine ⟨?_, fun _ => ?_, fun isPositive => absurd isPositive positive⟩
    · intro others parsedOther
      exact answeredAlike_of_refused parsed parsedOther runs runs opened openedAgain refusedPlain
        (leveled.trans (refused (some level))) rfl
    · exact answers_of_refused parsed runs opened refusedPlain rfl

/-- A program that writes a byte and then moves behind its two cells, under the checked flavor
and at level 3.
-/
theorem optimization_changes_no_answer_of_failing_run
    : Settings.ofArguments? Settings.runOptions
            ["p.bf", "--flavor", "signed-byte", "--tape-size", "2"]
          = .ok { file := "p.bf", flavor := .value .signedByte, tapeSize := .value 2 }
      ∧ Program.Matched #[0x2b, 0x2e, 0x3e, 0x3e, 0x2e]
      ∧ AnsweredAlike
          { contentsOf := fun _ => .ok #[0x2b, 0x2e, 0x3e, 0x3e, 0x2e], standardInput := #[] }
          ["p.bf", "--flavor", "signed-byte", "--tape-size", "2"]
          ["-O", "3", "p.bf", "--flavor", "signed-byte", "--tape-size", "2"]
      ∧ ∃ answer,
          Answers
            { contentsOf := fun _ => .ok #[0x2b, 0x2e, 0x3e, 0x3e, 0x2e], standardInput := #[] }
            ["p.bf", "--flavor", "signed-byte", "--tape-size", "2"] answer
          ∧ answer.ending = .exit 1
          ∧ answer.standardOutput = #[1] := by
  have parsed
      : Settings.ofArguments? Settings.runOptions
            ["p.bf", "--flavor", "signed-byte", "--tape-size", "2"]
          = .ok { file := "p.bf", flavor := .value .signedByte, tapeSize := .value 2 } := by
    rfl
  have matched : Program.Matched #[0x2b, 0x2e, 0x3e, 0x3e, 0x2e] := by decide
  have opened
      : openFiles
            { contentsOf := fun _ => .ok #[0x2b, 0x2e, 0x3e, 0x3e, 0x2e], standardInput := #[] }
            { file := "p.bf", flavor := .value .signedByte, tapeSize := .value 2 }
          = .ok (#[0x2b, 0x2e, 0x3e, 0x3e, 0x2e], none) := by
    rfl
  have three : Text.readInteger "3" = .ok 3 := by rfl
  obtain ⟨prefixed, alike, _⟩ :=
    optimization_changes_no_answer parsed rfl rfl rfl rfl (by decide : (0 : Int) ≤ 3) opened matched
  refine ⟨parsed, matched, alike _ (prefixed "3" three (by decide)), _, ⟨4, rfl⟩, rfl, rfl⟩

end CommandLine

end Brainfuck
