import Brainfuck.CommandLine.Option

/-! Reading a command line into the options and the file that it gives, in order.
A misuse ends the reading; what stands in front of it has been read all the same.
-/

namespace Brainfuck.CommandLine

/-- One thing that a command line gives: the file, or an option with what it is given. -/
inductive Occurrence where
  | file (name : String)
  | option (name : OptionName) (given : Given String)
deriving DecidableEq, Repr

/-- A flag stands for itself. -/
def Occurrence.flag (name : OptionName) : Occurrence :=
  .option name .nothing

/-- The options of one argument, and the last of them if its value is the next argument. -/
structure Bundle where
  occurrences : List Occurrence
  awaiting? : Option OptionName := none
deriving DecidableEq, Repr

/-- An option without attached text: it is a flag, or it takes the next argument. -/
def Bundle.ofName (name : OptionName) : Bundle :=
  if name.takesValue then { occurrences := [], awaiting? := some name }
  else { occurrences := [.flag name] }

/-- Puts a flag in front of a bundle. -/
def Bundle.cons (flag : OptionName) (bundle : Bundle) : Bundle :=
  { bundle with occurrences := .flag flag :: bundle.occurrences }

/-- The options of an argument from one with attached text on: the text is its value, or,
behind a short flag, the letters of more flags and possibly an option with a value.
-/
def Bundle.ofAttached (options : List OptionName) (name : OptionName) (isShort : Bool)
    (text : List Char) : Except UsageFault Bundle :=
  if name.takesValue then .ok { occurrences := [.option name (.ofAttached text)] }
  else match isShort, text with
    | true, letter :: rest =>
        match optionSpelled? options (String.ofList ['-', letter]), rest with
        | none, _ => .error (.ignoredValue name (String.ofList text))
        | some next, [] => .ok ((Bundle.ofName next).cons name)
        | some next, rest => (Bundle.ofAttached options next true rest).map (.cons name)
    | _, _ => .error (.ignoredValue name (String.ofList text))

/-- The options of an argument. -/
def Bundle.ofUse (options : List OptionName) (use : OptionUse) : Except UsageFault Bundle :=
  match use.attached? with
  | some text => Bundle.ofAttached options use.name use.isShort text
  | none => .ok (Bundle.ofName use.name)

/-- What a command line gives, the arguments that nobody asked for, and the misuse that
ended the reading.
-/
structure Reading where
  occurrences : List Occurrence := []
  unrecognized : List String := []
  fault? : Option UsageFault := none
deriving DecidableEq, Repr

namespace Reading

/-- Puts occurrences in front. -/
def give (occurrences : List Occurrence) (reading : Reading) : Reading :=
  { reading with occurrences := occurrences ++ reading.occurrences }

/-- Puts an unrecognized argument in front. -/
def leave (argument : String) (reading : Reading) : Reading :=
  { reading with unrecognized := argument :: reading.unrecognized }

/-- Reads arguments in order. The first word is the file, together with a separator next to
it; an option's value has to be a word.
-/
def ofTokens (options : List OptionName) (needsFile : Bool) : List Token → Reading
  | [] => {}
  | .separator :: .word text :: rest =>
      if needsFile then give [.file text] (ofTokens options false rest)
      else leave "--" (leave text (ofTokens options false rest))
  | .separator :: rest => leave "--" (ofTokens options needsFile rest)
  | .word text :: .separator :: rest =>
      if needsFile then give [.file text] (ofTokens options false rest)
      else leave text (leave "--" (ofTokens options false rest))
  | .word text :: rest =>
      if needsFile then give [.file text] (ofTokens options false rest)
      else leave text (ofTokens options false rest)
  | .unknown text :: rest => leave text (ofTokens options needsFile rest)
  | .option use :: rest =>
      match Bundle.ofUse options use with
      | .error fault => { fault? := some fault }
      | .ok { occurrences, awaiting? := none } =>
          give occurrences (ofTokens options needsFile rest)
      | .ok { occurrences, awaiting? := some name } =>
          match rest with
          | .word value :: rest =>
              give (occurrences ++ [.option name (.value value)])
                (ofTokens options needsFile rest)
          | _ => { fault? := some (.expectedValue name) }

/-- Reads a command line. An ambiguous argument is found before anything is read. -/
def ofArguments (options : List OptionName) (arguments : List String) : Reading :=
  match Token.ofArguments options arguments with
  | .error fault => { fault? := some fault }
  | .ok tokens => ofTokens options true tokens

/-- Ends a reading by a misuse, unless an earlier one has ended it. -/
def endBy (fault : UsageFault) (reading : Reading) : Reading :=
  { reading with fault? := some (reading.fault?.getD fault) }

end Reading

end Brainfuck.CommandLine
