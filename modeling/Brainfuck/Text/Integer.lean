import Brainfuck.Text.Blank
import Brainfuck.Text.DecimalDigit
import Brainfuck.Text.Quoted

/-! Decimal integers as people type them, and as they are written.
Blanks around the number, a sign, single underscores between digits and the digits of
any script are read; a number of more than 4300 digits is neither read nor written.
-/

namespace Brainfuck.Text

/-- Why a text is not read as an integer, or an integer not written as a text. -/
inductive IntegerFault where
  | malformed (text : String)
  | tooLong (digits : Nat)
  /-- The integer that is to be written has too many digits. -/
  | unwritable
deriving DecidableEq, Repr

/-- The most digits that an integer may have. -/
def maxDigits : Nat := 4300

/-- Integers that can be written, because they have no more digits than an integer may have.
-/
def IsShort (number : Int) : Prop :=
  (Nat.toDigits 10 number.natAbs).length ≤ maxDigits

instance (number : Int) : Decidable (IsShort number) :=
  inferInstanceAs (Decidable (_ ≤ _))

/-- Integers between short ones are short, because they need no more digits. -/
theorem isShort_of_natAbs_le {number other : Int} (le : number.natAbs ≤ other.natAbs)
    (short : IsShort other)
    : IsShort number := by
  unfold IsShort at short ⊢
  rw [Nat.length_toDigits_le_iff (by decide) (by decide)] at short ⊢
  exact Nat.lt_of_le_of_lt le short

/-- A refused integer is named by its quoted text, cut after 200 characters, or by the
number of its digits; one that cannot be written is not named.
-/
def IntegerFault.message : IntegerFault → String
  | .malformed text =>
      "invalid literal for int() with base 10: "
      ++ String.ofList ((quoted text).toList.take 200)
  | .tooLong digits =>
      "Exceeds the limit (" ++ toString maxDigits
      ++ " digits) for integer string conversion: value has " ++ toString digits
      ++ " digits; use sys.set_int_max_str_digits() to increase the limit"
  | .unwritable =>
      "Exceeds the limit (" ++ toString maxDigits
      ++ " digits) for integer string conversion; use sys.set_int_max_str_digits() to "
      ++ "increase the limit"

/-- Blanks that may surround a number; the information separators are not among them. -/
def isNumberBlank (char : Char) : Bool :=
  isBlank char && !(0x1c ≤ char.toNat && char.toNat ≤ 0x1f)

/-- Characters of a number after its sign. -/
def isNumeral (char : Char) : Bool :=
  char == '_' || (digitValue? char).isSome

/-- Underscores stand between digits only: `expectsDigit` holds at the start and after an
underscore.
-/
def underscoresSeparate (expectsDigit : Bool) : List Char → Bool
  | [] => true
  | ['_'] => false
  | char :: rest =>
      if char = '_' then !expectsDigit && underscoresSeparate true rest
      else underscoresSeparate false rest

/-- The number that digits denote, most significant first. -/
def numeralValue (digits : List Nat) : Nat :=
  digits.foldl (fun value digit => 10 * value + digit) 0

/-- A sign in front is taken off; without one the number is positive. -/
def splitSign : List Char → Int × List Char
  | '+' :: rest => (1, rest)
  | '-' :: rest => (-1, rest)
  | chars => (1, chars)

/-- Reads an integer; misplaced underscores are found before the number is too long, and
that before characters that follow it.
-/
def readInteger (text : String) : Except IntegerFault Int :=
  let (sign, unsigned) := splitSign (text.toList.dropWhile isNumberBlank)
  let numeral := unsigned.takeWhile isNumeral
  let digits := numeral.filterMap digitValue?
  if !underscoresSeparate true numeral then .error (.malformed text)
  else if maxDigits < digits.length then .error (.tooLong digits.length)
  else if digits.isEmpty || !(unsigned.dropWhile isNumeral).all isNumberBlank then
    .error (.malformed text)
  else .ok (sign * numeralValue digits)

end Brainfuck.Text
