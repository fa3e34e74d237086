import Brainfuck.Text.Printable

/-! Quoted texts and byte strings, as messages and the debugger show them.
A text stands between apostrophes, or between quotation marks when it holds apostrophes
but no quotation mark; what cannot be shown is written by its code.
-/

namespace Brainfuck.Text

/-- Lower-case digit of a value below sixteen. -/
def hexDigit (value : Nat) : Char :=
  Char.ofNat (if value < 10 then 0x30 + value else 0x57 + value)

/-- The last digits of a number in base sixteen, most significant first. -/
def hexDigits : Nat → Nat → List Char
  | 0, _ => []
  | width + 1, value => hexDigits width (value / 16) ++ [hexDigit (value % 16)]

/-- Apostrophes enclose a text unless it holds some and no quotation mark, because then
nothing inside needs an escape.
-/
def quotationMark (chars : List Char) : Char :=
  if chars.contains '\x27' && !chars.contains '\x22' then '\x22' else '\x27'

/-- One character between quotation marks: the mark and the backslash are escaped, three
controls have letters, and what is not shown is written by its code in two, four or
eight digits.
-/
def escaped (mark : Char) (isShown : Char → Bool) (char : Char) : List Char :=
  if char = mark || char = '\\' then ['\\', char]
  else if char = '\t' then ['\\', 't']
  else if char = '\n' then ['\\', 'n']
  else if char = '\r' then ['\\', 'r']
  else if isShown char then [char]
  else if char.toNat ≤ 0xff then '\\' :: 'x' :: hexDigits 2 char.toNat
  else if char.toNat ≤ 0xffff then '\\' :: 'u' :: hexDigits 4 char.toNat
  else '\\' :: 'U' :: hexDigits 8 char.toNat

/-- Characters between quotation marks, each escaped as needed. -/
def enclosed (isShown : Char → Bool) (chars : List Char) : List Char :=
  let mark := quotationMark chars
  mark :: chars.flatMap (escaped mark isShown) ++ [mark]

/-- A text in quotation marks. -/
def quoted (text : String) : String :=
  String.ofList (enclosed isPrintable text.toList)

/-- The character that a byte stands for when each byte is one character. -/
def byteChar (byte : UInt8) : Char :=
  Char.ofNat byte.toNat

/-- A byte string in quotation marks; only ASCII characters are shown. -/
def quotedBytes (bytes : Array UInt8) : String :=
  let isShown := fun char : Char => 0x20 ≤ char.toNat && char.toNat < 0x7f
  String.ofList ('b' :: enclosed isShown (bytes.toList.map byteChar))

/-- A byte by itself: the character when it can be shown, else the character quoted. -/
def shownByte (byte : UInt8) : String :=
  let text := String.singleton (byteChar byte)
  if isPrintable (byteChar byte) then text else quoted text

end Brainfuck.Text
