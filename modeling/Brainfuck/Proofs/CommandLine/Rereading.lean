import Brainfuck.Proofs.CommandLine.Optimization

/-! What becomes of values that are put on a command line as arguments of their own.
A value is read as it was meant only if it is a word by its form. Arguments that give options
their values are read to the end exactly when all the values are words, and then as these
options with these values.
-/

namespace Brainfuck.CommandLine

-----------------------------------------------------------------------------------------
-- Words
-----------------------------------------------------------------------------------------

/-- A text is read as itself, neither as an option nor as the separator. -/
def IsWord (options : List OptionName) (text : String) : Prop :=
  Token.ofArguments options [text] = .ok [.word text]

section Forms

variable {options : List OptionName} {argument text : String} {rest : List String}
  {tokens : List Token}

/-- An argument turns the rest into words, or it is read by its form in front of the rest. -/
theorem ofArguments_cons_eq_ok_iff
    : Token.ofArguments options (argument :: rest) = .ok tokens
      ↔ (argument = "--" ∧ tokens = .separator :: rest.map .word)
        ∨ (argument ≠ "--"
          ∧ ∃ token later,
              Token.ofArgument options argument = .ok token
              ∧ Token.ofArguments options rest = .ok later
              ∧ tokens = token :: later) := by
  rw [Token.ofArguments]
  by_cases separates : argument = "--"
  · simp [separates, eq_comm]
  · cases Token.ofArgument options argument <;> cases Token.ofArguments options rest <;>
      simp [separates, eq_comm]

/-- A word is the argument itself. -/
theorem eq_of_ofArgument_word (h : Token.ofArgument options argument = .ok (.word text))
    : text = argument := by
  simp only [Token.ofArgument] at h
  repeat' split at h
  all_goals simp_all

theorem ofArgument_ne_separator : Token.ofArgument options argument ≠ .ok .separator := by
  simp only [Token.ofArgument]
  repeat' split
  all_goals simp

theorem isWord_iff
    : IsWord options text
      ↔ text ≠ "--" ∧ Token.ofArgument options text = .ok (.word text) := by
  rw [IsWord, ofArguments_cons_eq_ok_iff]
  simp [Token.ofArguments]

/-- A text that does not start with a dash is a word. -/
theorem isWord_of_undashed (undashed : text.toList.head? ≠ some '-') : IsWord options text := by
  rw [isWord_iff]
  constructor
  · rintro rfl
    exact undashed rfl
  · exact Settings.ofArgument_of_undashed options undashed

/-- A text starts with a dash like an option: it is more than the dash, holds no space and is no
negative number.
-/
structure LooksLikeOption (text : String) : Prop where
  dashed : text.toList.head? = some '-'
  more : text ≠ "-"
  noSpace : ' ' ∉ text.toList
  noNumber : isNegativeNumber text.toList = false

/-- What looks like an option is no word, whether there is such an option or not. -/
theorem LooksLikeOption.not_isWord (h : LooksLikeOption text) : ¬ IsWord options text := by
  obtain ⟨dashed, more, noSpace, noNumber⟩ := h
  intro word
  have form := (isWord_iff.mp word).2
  have long : text.toList.length ≠ 1 := by
    intro single
    obtain ⟨char, only⟩ := List.length_eq_one_iff.mp single
    have dash : char = '-' := by simpa [only] using dashed
    exact more (String.toList_inj.mp (by rw [only, dash]; rfl))
  simp only [Token.ofArgument, dashed, long] at form
  repeat' split at form
  all_goals simp_all

end Forms

-----------------------------------------------------------------------------------------
-- Options with their values
-----------------------------------------------------------------------------------------

/-- The long way to write an option. -/
def OptionName.long (name : OptionName) : String :=
  name.spellings.getLastD ""

/-- Options and their values as arguments, each value behind its option. -/
def putOptions (pairs : List (OptionName × String)) : List String :=
  pairs.flatMap fun pair => [pair.1.long, pair.2]

/-- What is meant by putting options and their values as arguments. -/
def meantOptions (pairs : List (OptionName × String)) : List Occurrence :=
  pairs.map fun pair => .option pair.1 (.value pair.2)

/-- Arguments are read to the end, and no misuse ends the reading before. -/
def Reads (options : List OptionName) (needsFile : Bool) (arguments : List String)
    (reading : Reading) : Prop :=
  ∃ tokens,
    Token.ofArguments options arguments = .ok tokens
    ∧ Reading.ofTokens options needsFile tokens = reading
    ∧ reading.fault? = none

section Options

variable {options : List OptionName} {needsFile : Bool} {name : OptionName} {reading : Reading}
  {rest : List String}

/-- The long way to write an option spells it, and the option takes a value. -/
structure AwaitsValue (options : List OptionName) (name : OptionName) : Prop where
  whole : name.long ≠ "--"
  form
    : Token.ofArgument options name.long = .ok (.option { name, spelling := name.long })
  takes : name.takesValue = true

/-- Behind the option its value is expected. -/
theorem AwaitsValue.ofUse (awaits : AwaitsValue options name)
    : Bundle.ofUse options { name, spelling := name.long }
      = .ok { occurrences := [], awaiting? := some name } := by
  simp [Bundle.ofUse, Bundle.ofName, awaits.takes]

/-- The arguments behind the option are read by their form. -/
theorem AwaitsValue.eq_of_ofArguments (awaits : AwaitsValue options name) {tokens : List Token}
    (formed : Token.ofArguments options (name.long :: rest) = .ok tokens)
    : ∃ later,
        Token.ofArguments options rest = .ok later
        ∧ tokens = .option { name, spelling := name.long } :: later := by
  obtain ⟨separates, _⟩ | ⟨_, token, later, form, formedRest, rfl⟩ :=
    ofArguments_cons_eq_ok_iff.mp formed
  · exact absurd separates awaits.whole
  · obtain rfl := Except.ok.inj (awaits.form.symm.trans form)
    exact ⟨later, formedRest, rfl⟩

/-- An option that takes a value is read, with the next argument as its value, exactly when
this is a word.
-/
theorem reads_cons_cons_iff (awaits : AwaitsValue options name) {value : String}
    : Reads options needsFile (name.long :: value :: rest) reading
      ↔ IsWord options value
        ∧ ∃ later,
            Reads options needsFile rest later
            ∧ reading = later.give [.option name (.value value)] := by
  constructor
  · rintro ⟨tokens, formed, read, clear⟩
    obtain ⟨valueTokens, formedValue, rfl⟩ := awaits.eq_of_ofArguments formed
    obtain ⟨_, rfl⟩ | ⟨whole, token, tokens, form, formedRest, rfl⟩ :=
      ofArguments_cons_eq_ok_iff.mp formedValue
    · simp [Reading.ofTokens, awaits.ofUse] at read
      simp [← read] at clear
    · cases token with
      | word text =>
          obtain rfl := eq_of_ofArgument_word form
          simp only [Reading.ofTokens, awaits.ofUse, List.nil_append] at read
          refine ⟨isWord_iff.mpr ⟨whole, form⟩, _, ⟨tokens, formedRest, rfl, ?_⟩, read.symm⟩
          rw [← read] at clear
          exact clear
      | separator => exact absurd form ofArgument_ne_separator
      | option use | unknown text =>
          simp [Reading.ofTokens, awaits.ofUse] at read
          simp [← read] at clear
  · rintro ⟨word, later, ⟨tokens, formed, read, clear⟩, rfl⟩
    obtain ⟨whole, form⟩ := isWord_iff.mp word
    refine ⟨.option { name, spelling := name.long } :: .word value :: tokens, ?_, ?_, clear⟩
    · simp [ofArguments_cons_eq_ok_iff, awaits.whole, awaits.form, whole, form, formed]
    · simp [Reading.ofTokens, awaits.ofUse, read]

/-- Options are read with their values, and what follows them, exactly when all the values are
words, by induction on the options.
-/
theorem reads_putOptions_iff {pairs : List (OptionName × String)}
    (awaits : ∀ pair ∈ pairs, AwaitsValue options pair.1)
    : Reads options needsFile (putOptions pairs ++ rest) reading
      ↔ (∀ pair ∈ pairs, IsWord options pair.2)
        ∧ ∃ later,
            Reads options needsFile rest later
            ∧ reading = later.give (meantOptions pairs) := by
  induction pairs generalizing reading with
  | nil => simp [putOptions, meantOptions, Reading.give]
  | cons pair pairs ih =>
      have first := awaits pair List.mem_cons_self
      have others (reading : Reading) :=
        @ih reading fun other member => awaits other (List.mem_cons_of_mem _ member)
      have opened
          : putOptions (pair :: pairs) ++ rest
            = pair.1.long :: pair.2 :: (putOptions pairs ++ rest) :=
        rfl
      rw [opened, reads_cons_cons_iff first, List.forall_mem_cons]
      constructor
      · rintro ⟨word, _, readPairs, rfl⟩
        obtain ⟨words, later, read, rfl⟩ := (others _).mp readPairs
        exact ⟨⟨word, words⟩, later, read, rfl⟩
      · rintro ⟨⟨word, words⟩, later, read, rfl⟩
        exact ⟨word, _, (others _).mpr ⟨words, later, read, rfl⟩, rfl⟩

theorem any_isFile_ofName (name : OptionName)
    : (Bundle.ofName name).occurrences.any Settings.isFile = false := by
  unfold Bundle.ofName
  split <;> rfl

/-- Bundled flags and an option behind them are no file, by induction on the letters. -/
theorem any_isFile_of_ofAttached {isShort : Bool} {text : List Char} {bundle : Bundle}
    (h : Bundle.ofAttached options name isShort text = .ok bundle)
    : bundle.occurrences.any Settings.isFile = false := by
  fun_induction Bundle.ofAttached options name isShort text generalizing bundle with
  | case1 =>
      cases h
      rfl
  | case2 | case5 => cases h
  | case3 =>
      cases h
      exact any_isFile_ofName _
  | case4 _ _ _ next text _ _ ih =>
      cases attached : Bundle.ofAttached options next true text with
      | error fault => simp [attached, Except.map] at h
      | ok later =>
          simp only [attached, Except.map, Except.ok.injEq] at h
          subst h
          have others := ih attached
          exact others

theorem any_isFile_of_ofUse {use : OptionUse} {bundle : Bundle}
    (h : Bundle.ofUse options use = .ok bundle)
    : bundle.occurrences.any Settings.isFile = false := by
  unfold Bundle.ofUse at h
  split at h
  · exact any_isFile_of_ofAttached h
  · cases h
    exact any_isFile_ofName _

end Options

-----------------------------------------------------------------------------------------
-- The file in front of its options
-----------------------------------------------------------------------------------------

section Files

variable {options : List OptionName} {name : OptionName} {file value : String}
  {rest : List String} {settings : Settings}

/-- A word behind the file is left over. -/
theorem unrecognized_of_word (options : List OptionName) (text : String) (tokens : List Token)
    : (Reading.ofTokens options false (.word text :: tokens)).unrecognized ≠ [] := by
  cases tokens with
  | nil => simp [Reading.ofTokens, Reading.leave]
  | cons token rest => cases token <;> simp [Reading.ofTokens, Reading.leave]

/-- A command line with the file in front of options and their values gives settings exactly
when the file is a word and the rest is read. A separator makes the first option the file and
leaves its value over; what is read as an option gives no file, and neither does the rest.
-/
theorem ofArguments?_cons_eq_ok_iff (awaits : AwaitsValue options name)
    (noFile
      : ∀ reading,
          Reads options true (name.long :: value :: rest) reading
          → reading.occurrences.any Settings.isFile = false)
    : Settings.ofArguments? options (file :: name.long :: value :: rest) = .ok settings
      ↔ IsWord options file
        ∧ ∃ reading,
            Reads options false (name.long :: value :: rest) reading
            ∧ reading.unrecognized = []
            ∧ ({ file } : Settings).assignAll reading.occurrences = .ok settings := by
  rw [Settings.ofArguments?, Settings.ofReading?_eq_ok_iff, Reading.ofArguments]
  constructor
  · rintro ⟨assigned, clear, given, known⟩
    cases formed : Token.ofArguments options (file :: name.long :: value :: rest) with
    | error fault => simp [formed] at clear
    | ok tokens =>
        simp only [formed] at assigned clear given known
        obtain ⟨_, rfl⟩ | ⟨whole, token, later, form, formedRest, rfl⟩ :=
          ofArguments_cons_eq_ok_iff.mp formed
        · exact absurd known (unrecognized_of_word options value _)
        obtain ⟨values, _, rfl⟩ := awaits.eq_of_ofArguments formedRest
        cases token with
        | word text =>
            obtain rfl := eq_of_ofArgument_word form
            exact ⟨isWord_iff.mpr ⟨whole, form⟩, _, ⟨_, formedRest, rfl, clear⟩, known, assigned⟩
        | separator => exact absurd form ofArgument_ne_separator
        | unknown text => simp [Reading.ofTokens, Reading.leave] at known
        | option use =>
            cases used : Bundle.ofUse options use with
            | error fault => simp [Reading.ofTokens, used] at clear
            | ok bundle =>
                obtain ⟨occurrences, awaiting?⟩ := bundle
                cases awaiting? with
                | some other => simp [Reading.ofTokens, used] at clear
                | none =>
                    have read
                        : ∀ later,
                            Reading.ofTokens options true (.option use :: later)
                            = (Reading.ofTokens options true later).give occurrences := by
                      intro later
                      rw [Reading.ofTokens, used]
                    rw [read] at clear given
                    have first := any_isFile_of_ofUse used
                    have others := noFile _ ⟨_, formedRest, rfl, clear⟩
                    rw [Reading.give, List.any_append, first, others] at given
                    contradiction
  · rintro ⟨word, reading, ⟨tokens, formed, read, clear⟩, known, assigned⟩
    obtain ⟨whole, form⟩ := isWord_iff.mp word
    obtain ⟨values, _, rfl⟩ := awaits.eq_of_ofArguments formed
    have formedAll
        : Token.ofArguments options (file :: name.long :: value :: rest)
          = .ok (.word file :: .option { name, spelling := name.long } :: values) :=
      ofArguments_cons_eq_ok_iff.mpr (.inr ⟨whole, _, _, form, formed, rfl⟩)
    have all
        : Reading.ofTokens options true
              (.word file :: .option { name, spelling := name.long } :: values)
          = reading.give [.file file] := by
      rw [← read]
      rfl
    simp only [formedAll, all]
    exact ⟨assigned, clear, rfl, known⟩

end Files

end Brainfuck.CommandLine
