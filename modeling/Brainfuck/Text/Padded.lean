/-! Numbers in columns: blanks or zeros fill the left side up to a width. -/

namespace Brainfuck.Text

/-- Blanks in front bring a text to a width. -/
def padded (width : Nat) (text : String) : String :=
  String.ofList (List.replicate (width - text.length) ' ') ++ text

/-- A number right-aligned among blanks. -/
def paddedInteger (width : Nat) (value : Int) : String :=
  padded width (toString value)

/-- A number brought to a width by zeros between its sign and its digits. -/
def zeroPadded (width : Nat) (value : Int) : String :=
  let sign := if value < 0 then "-" else ""
  let digits := toString value.natAbs
  sign ++ String.ofList (List.replicate (width - sign.length - digits.length) '0') ++ digits

end Brainfuck.Text
