import Brainfuck.Proofs.Text.Numerals
import Brainfuck.Proofs.CommandLine.Rereading

/-! Handing a command line over to the debugging tool.
The settings of a run are put on a command line again, and the debugging tool reads them from
there. Numbers and flavors come through whatever they are, but names only if they are words.
-/

namespace Brainfuck.CommandLine

-----------------------------------------------------------------------------------------
-- Numbers
-----------------------------------------------------------------------------------------

/-- All numbers that settings hold are short enough to be written and read back. -/
structure Settings.HoldsShort (settings : Settings) : Prop where
  tapeSize : ∀ number, settings.tapeSize = .value number → Text.IsShort number
  level : ∀ number, settings.level? = some (.value number) → Text.IsShort number

namespace Settings

variable {settings changed : Settings}

/-- An integer that an option is given is short. -/
theorem isShort_of_integerOf {name : OptionName} {given : Given String} {number : Int}
    (h : integerOf name given = .ok (.value number))
    : Text.IsShort number := by
  cases given with
  | nothing => cases h
  | value text =>
      cases read : Text.readInteger text with
      | error fault => simp [integerOf, read] at h
      | ok value =>
          simp only [integerOf, read, Except.ok.injEq, Given.value.injEq] at h
          subst h
          exact Text.isShort_of_readInteger read

/-- What one option sets keeps the numbers short. -/
theorem HoldsShort.assign (short : settings.HoldsShort) {name : OptionName} {given : Given String}
    (h : settings.assign name given = .ok changed)
    : changed.HoldsShort := by
  cases name with
  | help => cases h
  | flavor =>
      cases value : flavorOf given <;> simp [Settings.assign, value, Except.map] at h
      subst h
      exact ⟨short.tapeSize, short.level⟩
  | optimize =>
      cases value : integerOf .optimize given <;> simp [Settings.assign, value, Except.map] at h
      subst h
      refine ⟨short.tapeSize, ?_⟩
      rintro number ⟨⟩
      exact isShort_of_integerOf value
  | tapeSize =>
      cases value : integerOf .tapeSize given <;> simp [Settings.assign, value, Except.map] at h
      subst h
      refine ⟨?_, short.level⟩
      rintro number ⟨⟩
      exact isShort_of_integerOf value
  | breakAt =>
      cases value : integerOf .breakAt given <;> simp [Settings.assign, value, Except.map] at h
      subst h
      exact ⟨short.tapeSize, short.level⟩
  | input | metrics | debug | verbose =>
      cases h
      exact ⟨short.tapeSize, short.level⟩

/-- What all occurrences set keeps the numbers short, by induction on them. -/
theorem HoldsShort.assignAll {occurrences : List Occurrence} (short : settings.HoldsShort)
    (h : settings.assignAll occurrences = .ok changed)
    : changed.HoldsShort := by
  induction occurrences generalizing settings with
  | nil =>
      cases h
      exact short
  | cons occurrence rest ih =>
      cases occurrence with
      | file file =>
          have same : ({ settings with file } : Settings).HoldsShort :=
            ⟨short.tapeSize, short.level⟩
          exact ih same h
      | option name given =>
          rw [Settings.assignAll] at h
          cases first : settings.assign name given with
          | error stop => simp [first] at h
          | ok next =>
              simp only [first] at h
              exact ih (short.assign first) h

/-- A command line sets short numbers only; those that nobody sets are short as well. -/
theorem holdsShort_of_ofArguments? {options : List OptionName} {arguments : List String}
    (parsed : ofArguments? options arguments = .ok settings)
    : settings.HoldsShort := by
  have default : ({} : Settings).HoldsShort := by
    constructor
    · rintro number ⟨⟩
      decide
    · rintro number ⟨⟩
  exact default.assignAll (ofReading?_eq_ok_iff.mp parsed).1

end Settings

-----------------------------------------------------------------------------------------
-- Words
-----------------------------------------------------------------------------------------

theorem splitAtSign_of_not_mem {chars : List Char} (noSign : '=' ∉ chars)
    : splitAtSign chars = (chars, none) := by
  induction chars with
  | nil => rfl
  | cons char chars ih =>
      simp only [List.mem_cons, not_or] at noSign
      simp [splitAtSign, Ne.symm noSign.1, ih noSign.2]

section Dashed

variable {digits : List Char}

/-- No option of the debugging tool starts with a dash and a digit. -/
theorem any_isDigit_of_mem_allSpellings
    : ∀ entry ∈ allSpellings Settings.debugOptions,
        entry.1.toList[1]?.any Char.isDigit = false := by
  decide

/-- Digits behind a dash are a negative number. -/
theorem isNegativeNumber_of_digits (all : ∀ char ∈ digits, char.isDigit = true)
    (some : digits ≠ [])
    : isNegativeNumber ('-' :: digits) = true := by
  have noLine : digits.getLast? ≠ .some '\n' := by
    intro last
    exact absurd (all _ (List.mem_of_getLast? last)) (by decide)
  have dropped : digits.dropWhile (fun char => (Text.digitValue? char).isSome) = [] := by
    rw [List.dropWhile_eq_nil_iff]
    intro char member
    simp [Text.digitValue?_of_isDigit (all char member)]
  simp [isNegativeNumber, noLine, dropped, some]

/-- Digits behind a dash are a word. -/
theorem isWord_of_digits {text : String} (dashed : text.toList = '-' :: digits)
    (all : ∀ char ∈ digits, char.isDigit = true) (some : digits ≠ [])
    : IsWord Settings.debugOptions text := by
  obtain ⟨digit, rest, rfl⟩ := List.exists_cons_of_ne_nil some
  have isDigit : digit.isDigit = true := all digit List.mem_cons_self
  have noSign : '=' ∉ '-' :: digit :: rest := by
    intro member
    obtain sign | member := List.mem_cons.mp member
    · contradiction
    · exact absurd (all _ member) (by decide)
  have noDash : digit ≠ '-' := by
    rintro rfl
    contradiction
  have unspelled : optionSpelled? Settings.debugOptions text = none := by
    rw [optionSpelled?, Option.map_eq_none_iff, List.find?_eq_none]
    intro entry member spelled
    have same : entry.1 = text := of_decide_eq_true spelled
    have other := any_isDigit_of_mem_allSpellings entry member
    simp [same, dashed, isDigit] at other
  have noCandidate : candidates Settings.debugOptions ('-' :: digit :: rest) = [] := by
    have second : ('-' :: digit :: rest)[1]? ≠ .some '-' := by simpa using noDash
    rw [candidates, if_neg second, List.map_eq_nil_iff, List.filter_eq_nil_iff]
    intro entry member starts
    have same : entry.1.toList = ['-', digit] := of_decide_eq_true starts
    have other := any_isDigit_of_mem_allSpellings entry member
    simp [same, isDigit] at other
  rw [isWord_iff]
  constructor
  · rintro rfl
    simp only [String.reduceToList, List.cons.injEq, true_and] at dashed
    exact noDash dashed.1.symm
  · simp [Token.ofArgument, dashed, unspelled, splitAtSign_of_not_mem noSign, noCandidate,
      isNegativeNumber_of_digits all some]

end Dashed

/-- Numbers are words: those below zero are digits behind a dash. -/
theorem isWord_toString (number : Int) : IsWord Settings.debugOptions (toString number) := by
  cases number with
  | ofNat natural =>
      apply isWord_of_undashed
      rw [Text.toList_toString_ofNat]
      intro dashed
      have digit := Text.isDigit_of_mem_toDigits (List.mem_of_mem_head? dashed)
      contradiction
  | negSucc natural =>
      exact isWord_of_digits (Text.toList_toString_negSucc natural)
        (fun _ => Text.isDigit_of_mem_toDigits) Nat.toDigits_ne_nil

-----------------------------------------------------------------------------------------
-- The command line that is handed over
-----------------------------------------------------------------------------------------

namespace Settings

variable {settings handed : Settings} {flavor : Flavor}

/-- The level as an option of the command line that is handed over. -/
def levelOptions : Option (Given Int) → List (OptionName × String)
  | some level => [(.optimize, level.describe toString)]
  | none => []

/-- The input file as an option of the command line that is handed over. -/
def inputOptions : Option String → List (OptionName × String)
  | some name => [(.input, name)]
  | none => []

/-- The options with values on the command line that is handed over. -/
def handedOptions (settings : Settings) (flavor : Flavor) : List (OptionName × String) :=
  [(.flavor, flavor.name), (.tapeSize, settings.tapeSize.describe toString)]
  ++ levelOptions settings.level? ++ inputOptions settings.inputFile?

/-- The flags on the command line that is handed over. -/
def handedFlags (settings : Settings) : List String :=
  if settings.isVerbose then ["--verbose"] else []

/-- The file stands in front of the options, and these in front of the flags. -/
theorem forwarded_eq (settings : Settings) (flavor : Flavor)
    : settings.forwarded flavor
      = settings.file :: (putOptions (settings.handedOptions flavor) ++ settings.handedFlags) := by
  unfold forwarded handedOptions handedFlags
  cases settings.level? <;> cases settings.inputFile? <;> rfl

/-- The options are spelled in full, and all of them take a value. -/
theorem awaitsValue_of_mem_handedOptions
    : ∀ pair ∈ settings.handedOptions flavor, AwaitsValue debugOptions pair.1 := by
  have flavor : AwaitsValue debugOptions .flavor := ⟨by decide, rfl, rfl⟩
  have tapeSize : AwaitsValue debugOptions .tapeSize := ⟨by decide, rfl, rfl⟩
  have optimize : AwaitsValue debugOptions .optimize := ⟨by decide, rfl, rfl⟩
  have input : AwaitsValue debugOptions .input := ⟨by decide, rfl, rfl⟩
  unfold handedOptions
  cases settings.level? <;> cases settings.inputFile? <;>
    simp [levelOptions, inputOptions, flavor, tapeSize, optimize, input]

/-- What an option with an integer has been given is a word. -/
theorem isWord_describe (given : Given Int) : IsWord debugOptions (given.describe toString) := by
  cases given with
  | value number => exact isWord_toString number
  | nothing => exact isWord_of_undashed (by decide)

/-- The values of the options are words if the name of the input is. -/
theorem forall_isWord_handedOptions_iff
    : (∀ pair ∈ settings.handedOptions flavor, IsWord debugOptions pair.2)
      ↔ ∀ name, settings.inputFile? = some name → IsWord debugOptions name := by
  have flavorWord : IsWord debugOptions flavor.name := by
    cases flavor <;> exact isWord_of_undashed (by decide)
  unfold handedOptions
  cases settings.level? <;> cases settings.inputFile? <;>
    simp [levelOptions, inputOptions, flavorWord, isWord_describe]

/-- Flags are read as they are. -/
theorem reads_handedFlags_iff {needsFile : Bool} {reading : Reading}
    : Reads debugOptions needsFile settings.handedFlags reading
      ↔ reading = { occurrences := if settings.isVerbose then [.flag .verbose] else [] } := by
  have verbose
      : Token.ofArguments debugOptions ["--verbose"]
        = .ok [.option { name := .verbose, spelling := "--verbose" }] := by
    rfl
  unfold handedFlags
  constructor
  · rintro ⟨tokens, formed, rfl, clear⟩
    cases quiet : settings.isVerbose with
    | false =>
        rw [quiet] at formed
        cases formed
        rfl
    | true =>
        rw [quiet] at formed
        obtain rfl := Except.ok.inj (verbose.symm.trans formed)
        rfl
  · rintro rfl
    cases settings.isVerbose with
    | false => exact ⟨_, rfl, rfl, rfl⟩
    | true => exact ⟨_, verbose, rfl, rfl⟩

/-- The settings of a run as the debugging tool has to read them again. -/
def reread (settings : Settings) : Settings :=
  {
    file := settings.file
    flavor := settings.flavor
    level? := settings.level?
    tapeSize := settings.tapeSize
    input? := settings.inputFile?
    isVerbose := settings.isVerbose
  }

/-- All that settings put on a command line is read from there as it was meant: names are words,
and no option was given nothing.
-/
structure IsRereadable (settings : Settings) : Prop where
  file : IsWord debugOptions settings.file
  input : ∀ name, settings.inputFile? = some name → IsWord debugOptions name
  flavor : settings.flavor ≠ .nothing
  tapeSize : settings.tapeSize ≠ .nothing
  level : settings.level? ≠ some .nothing

/-- The same integer is given again, and nothing is given as text that is no integer. -/
theorem integerOf_describe (name : OptionName) {given : Given Int}
    (short : ∀ number, given = .value number → Text.IsShort number)
    : integerOf name (.value (given.describe toString))
      = if given = .nothing then .error (.misuse (.invalidInteger name "[]")) else .ok given := by
  cases given with
  | value number =>
      have read := Text.readInteger_toString (short number rfl)
      simp only [integerOf, Given.describe, read, reduceCtorEq, if_false]
  | nothing => rfl

section Assigning

variable {rest : List Occurrence}

theorem assignAll_flavor (flavor : Flavor)
    : settings.assignAll (.option .flavor (.value flavor.name) :: rest)
      = { settings with flavor := .value flavor }.assignAll rest := by
  cases flavor <;> rfl

theorem assignAll_tapeSize_eq_ok_iff {given : Given Int}
    (short : ∀ number, given = .value number → Text.IsShort number)
    : settings.assignAll (.option .tapeSize (.value (given.describe toString)) :: rest)
        = .ok handed
      ↔ given ≠ .nothing ∧ { settings with tapeSize := given }.assignAll rest = .ok handed := by
  rw [assignAll, assign, integerOf_describe _ short]
  by_cases missing : given = .nothing <;> simp [missing, Except.map]

theorem assignAll_levelOptions_eq_ok_iff {level? : Option (Given Int)}
    (short : ∀ number, level? = some (.value number) → Text.IsShort number)
    (unset : settings.level? = none)
    : settings.assignAll (meantOptions (levelOptions level?) ++ rest) = .ok handed
      ↔ level? ≠ some .nothing ∧ { settings with level? }.assignAll rest = .ok handed := by
  cases level? with
  | none =>
      have same : { settings with level? := none } = settings := by rw [← unset]
      simp [levelOptions, meantOptions, same]
  | some given =>
      have shortGiven : ∀ number, given = .value number → Text.IsShort number := by
        rintro number rfl
        exact short number rfl
      have first
          : meantOptions (levelOptions (some given)) ++ rest
            = .option .optimize (.value (given.describe toString)) :: rest :=
        rfl
      rw [first, assignAll, assign, integerOf_describe _ shortGiven]
      by_cases missing : given = .nothing <;> simp [missing, Except.map]

theorem assignAll_inputOptions {input? : Option String} (unset : settings.input? = none)
    : settings.assignAll (meantOptions (inputOptions input?) ++ rest)
      = { settings with input? }.assignAll rest := by
  cases input? with
  | none =>
      have same : { settings with input? := none } = settings := by rw [← unset]
      simp [inputOptions, meantOptions, same]
  | some name => rfl

theorem assignAll_flags {isVerbose : Bool} (unset : settings.isVerbose = false)
    : settings.assignAll (if isVerbose then [.flag .verbose] else [])
      = .ok { settings with isVerbose } := by
  cases isVerbose with
  | false =>
      have same : { settings with isVerbose := false } = settings := by rw [← unset]
      simp [assignAll, same]
  | true => rfl

end Assigning

/-- The options that are handed over set what they were put for, if none was given nothing. -/
theorem assignAll_handed_eq_ok_iff (flavored : settings.flavor = .value flavor)
    (short : settings.HoldsShort)
    : ({ file := settings.file } : Settings).assignAll
          (meantOptions (settings.handedOptions flavor)
          ++ if settings.isVerbose then [.flag .verbose] else [])
        = .ok handed
      ↔ settings.tapeSize ≠ .nothing
        ∧ settings.level? ≠ some .nothing
        ∧ handed = settings.reread := by
  have parts
      : meantOptions (settings.handedOptions flavor)
        = .option .flavor (.value flavor.name)
          :: .option .tapeSize (.value (settings.tapeSize.describe toString))
          :: (meantOptions (levelOptions settings.level?)
            ++ meantOptions (inputOptions settings.inputFile?)) := by
    simp [handedOptions, meantOptions]
  rw [parts, List.cons_append, List.cons_append, List.append_assoc, assignAll_flavor,
    assignAll_tapeSize_eq_ok_iff short.tapeSize, assignAll_levelOptions_eq_ok_iff short.level rfl,
    assignAll_inputOptions rfl, assignAll_flags rfl, Except.ok.injEq, reread, flavored]
  simp only [eq_comm]

/-- What is read from the options and the flags that are handed over. -/
theorem reads_handed_iff {needsFile : Bool} {reading : Reading}
    : Reads debugOptions needsFile
          (putOptions (settings.handedOptions flavor) ++ settings.handedFlags) reading
      ↔ (∀ name, settings.inputFile? = some name → IsWord debugOptions name)
        ∧ reading
          = {
              occurrences :=
                meantOptions (settings.handedOptions flavor)
                ++ if settings.isVerbose then [.flag .verbose] else []
            } := by
  rw [reads_putOptions_iff awaitsValue_of_mem_handedOptions, forall_isWord_handedOptions_iff]
  constructor
  · rintro ⟨words, later, read, rfl⟩
    rw [reads_handedFlags_iff.mp read]
    exact ⟨words, rfl⟩
  · rintro ⟨words, rfl⟩
    exact ⟨words, _, reads_handedFlags_iff.mpr rfl, rfl⟩

/-- The debugging tool reads the command line that is handed over exactly when the settings can
be read again, and then it reads the same settings.
-/
theorem ofArguments?_forwarded_eq_ok_iff (flavored : settings.flavor = .value flavor)
    (short : settings.HoldsShort)
    : ofArguments? debugOptions (settings.forwarded flavor) = .ok handed
      ↔ settings.IsRereadable ∧ handed = settings.reread := by
  have awaits : AwaitsValue debugOptions .flavor := ⟨by decide, rfl, rfl⟩
  have opened
      : putOptions (settings.handedOptions flavor) ++ settings.handedFlags
        = OptionName.flavor.long :: flavor.name
          :: (putOptions (settings.handedOptions flavor).tail ++ settings.handedFlags) :=
    rfl
  have noFile
      : ∀ reading,
          Reads debugOptions true
              (putOptions (settings.handedOptions flavor) ++ settings.handedFlags) reading
          → reading.occurrences.any isFile = false := by
    intro reading read
    rw [(reads_handed_iff.mp read).2]
    cases settings.isVerbose <;> simp [meantOptions, isFile, Occurrence.flag]
  rw [opened] at noFile
  rw [forwarded_eq, opened, ofArguments?_cons_eq_ok_iff awaits noFile, ← opened]
  constructor
  · rintro ⟨fileWord, reading, read, _, assigned⟩
    obtain ⟨inputWord, rfl⟩ := reads_handed_iff.mp read
    obtain ⟨size, level, rfl⟩ := (assignAll_handed_eq_ok_iff flavored short).mp assigned
    exact ⟨⟨fileWord, inputWord, by simp [flavored], size, level⟩, rfl⟩
  · rintro ⟨rereadable, rfl⟩
    exact ⟨rereadable.file, _, reads_handed_iff.mpr ⟨rereadable.input, rfl⟩, rfl,
      (assignAll_handed_eq_ok_iff flavored short).mpr
        ⟨rereadable.tapeSize, rereadable.level, rfl⟩⟩

/-- Settings are handed over exactly when they can be read again, and unchanged. -/
theorem handedOver?_eq_ok_iff (short : settings.HoldsShort)
    : settings.handedOver? = .ok handed ↔ settings.IsRereadable ∧ handed = settings.reread := by
  cases flavored : settings.flavor with
  | value flavor =>
      simp only [handedOver?, flavored]
      exact ofArguments?_forwarded_eq_ok_iff flavored short
  | nothing =>
      simp only [handedOver?, flavored]
      constructor
      · intro read
        have clear := (ofReading?_eq_ok_iff.mp read).2.1
        contradiction
      · rintro ⟨rereadable, _⟩
        exact absurd flavored rereadable.flavor

/-- Settings that are read again have the same input file: an empty name is none. -/
theorem inputFile?_reread (settings : Settings)
    : settings.reread.inputFile? = settings.inputFile? := by
  simp only [inputFile?, reread, Option.filter_filter, Bool.and_self]

end Settings

/-- The files of settings that are read again are the same. -/
theorem openFiles_reread (surroundings : Surroundings) (settings : Settings)
    : openFiles surroundings settings.reread = openFiles surroundings settings := by
  simp only [openFiles, Settings.inputFile?_reread]
  rfl

/-- A run that debugs is handed over to the debugging tool exactly when what it was given can be
read again: its file and its input file are words, and no option was given nothing. Then the
tool debugs the same program with the same configuration and the same input, without a
breakpoint. Otherwise what stops the tool at its command line stops the run, and every name that
looks like an option is such a stop.
-/
theorem debugging_handed_over {arguments : List String} {settings : Settings}
    (parsed : Settings.ofArguments? Settings.runOptions arguments = .ok settings)
    (debugs : settings.debugs = true)
    : ((∃ handed, settings.handedOver? = .ok handed) ↔ settings.IsRereadable)
      ∧ (∀ handed,
          settings.handedOver? = .ok handed
          → handed.file = settings.file
            ∧ handed.flavor = settings.flavor
            ∧ handed.tapeSize = settings.tapeSize
            ∧ handed.level? = settings.level?
            ∧ handed.isVerbose = settings.isVerbose
            ∧ handed.inputFile? = settings.inputFile?
            ∧ handed.breakpoints = []
            ∧ handed.configuration? = settings.configuration?
            ∧ ∀ surroundings,
                openFiles surroundings handed = openFiles surroundings settings
                ∧ ∀ allowance,
                    run? allowance surroundings arguments
                    = (debugUnder? allowance surroundings handed).map .ok)
      ∧ (∀ stop,
          settings.handedOver? = .error stop
          → ∀ surroundings allowance,
              run? allowance surroundings arguments = some (.error stop))
      ∧ ∀ name,
          name = settings.file ∨ settings.inputFile? = some name
          → LooksLikeOption name
          → ∃ stop, settings.handedOver? = .error stop := by
  have short := Settings.holdsShort_of_ofArguments? parsed
  refine ⟨?accepts, ?same, ?stops, ?dashed⟩
  case accepts =>
    constructor
    · rintro ⟨handed, read⟩
      exact ((Settings.handedOver?_eq_ok_iff short).mp read).1
    · intro rereadable
      exact ⟨_, (Settings.handedOver?_eq_ok_iff short).mpr ⟨rereadable, rfl⟩⟩
  case same =>
    intro handed read
    obtain ⟨_, rfl⟩ := (Settings.handedOver?_eq_ok_iff short).mp read
    refine ⟨rfl, rfl, rfl, rfl, rfl, Settings.inputFile?_reread settings, rfl, rfl, ?_⟩
    intro surroundings
    refine ⟨openFiles_reread surroundings settings, ?_⟩
    intro allowance
    simp only [run?, parsed, debugs, read, if_true]
  case stops =>
    intro stop read surroundings allowance
    simp only [run?, parsed, debugs, read, if_true]
  case dashed =>
    intro name named dashed
    cases read : settings.handedOver? with
    | error stop => exact ⟨stop, rfl⟩
    | ok handed =>
        have rereadable := ((Settings.handedOver?_eq_ok_iff short).mp read).1
        have word : IsWord Settings.debugOptions name := by
          obtain rfl | input := named
          · exact rereadable.file
          · exact rereadable.input name input
        exact absurd word dashed.not_isWord

/-- A file with a number below zero for a name, and an input file with a space in its name. -/
theorem debugging_handed_over_with_odd_names
    : ∃ settings handed,
        Settings.ofArguments? Settings.runOptions
            ["--debug", "-O", "1", "--tape-size=8", "--input=a b", "-v", "-5"]
          = .ok settings
        ∧ settings.debugs = true
        ∧ settings.handedOver? = .ok handed
        ∧ handed.file = "-5"
        ∧ handed.inputFile? = some "a b"
        ∧ handed.configuration? = .ok { engine := .virtualMachine, tapeSize := 8, level := 1 } := by
  let settings : Settings :=
    {
      file := "-5"
      level? := some (.value 1)
      tapeSize := .value 8
      input? := some "a b"
      debugs := true
      isVerbose := true
    }
  have parsed
      : Settings.ofArguments? Settings.runOptions
            ["--debug", "-O", "1", "--tape-size=8", "--input=a b", "-v", "-5"]
          = .ok settings := by
    decide +kernel
  have rereadable : settings.IsRereadable := by
    have file : IsWord Settings.debugOptions "-5" := rfl
    have input : IsWord Settings.debugOptions "a b" := rfl
    refine ⟨file, ?_, by decide, by decide, by decide⟩
    rintro name ⟨⟩
    exact input
  obtain ⟨accepts, same, _⟩ := debugging_handed_over parsed rfl
  obtain ⟨handed, read⟩ := accepts.mpr rereadable
  obtain ⟨file, _, _, _, _, input, _, configured, _⟩ := same handed read
  exact ⟨settings, handed, parsed, rfl, read, file, input, configured.trans rfl⟩

/-- The run takes a file behind the separator and an input file behind an equals sign whatever
their names are, and the debugging tool takes neither of them.
-/
theorem dashed_names_not_handed_over
    : (∃ settings,
        Settings.ofArguments? Settings.runOptions ["-d", "--", "-x.bf"] = .ok settings
        ∧ settings.debugs = true
        ∧ settings.handedOver? = .error (.misuse .fileRequired))
      ∧ ∃ settings,
          Settings.ofArguments? Settings.runOptions ["-d", "--input=-x", "p.bf"] = .ok settings
          ∧ settings.debugs = true
          ∧ settings.handedOver? = .error (.misuse (.expectedValue .input)) := by
  constructor
  · exact ⟨{ file := "-x.bf", debugs := true }, rfl, rfl, by decide +kernel⟩
  · exact ⟨{ file := "p.bf", input? := some "-x", debugs := true }, by decide +kernel, rfl,
      by decide +kernel⟩

end Brainfuck.CommandLine
