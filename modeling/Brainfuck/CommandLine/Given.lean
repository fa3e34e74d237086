/-! What an option is given on a command line. -/

namespace Brainfuck.CommandLine

/-- What an option is given: a value, or nothing. Flags are given nothing, and so is an
option whose argument attaches the separator `--` in place of a value.
-/
inductive Given (α : Type) where
  | value (content : α)
  | nothing
deriving DecidableEq, Repr

namespace Given

/-- What a text attached to an option gives it. -/
def ofAttached (text : List Char) : Given String :=
  if text = ['-', '-'] then .nothing else .value (String.ofList text)

/-- The value, if there is one. -/
def value? {α : Type} : Given α → Option α
  | .value content => some content
  | .nothing => none

/-- Text of what is given; nothing shows as an empty pair of brackets. -/
def describe {α : Type} (text : α → String) : Given α → String
  | .value content => text content
  | .nothing => "[]"

end Given

end Brainfuck.CommandLine
