import Mathlib.Algebra.Group.Nat.Defs
import Mathlib.Algebra.Ring.Int.Defs
import Mathlib.Data.List.Basic
import Mathlib.Data.List.TakeWhile
import Brainfuck.Text.Integer

/-! Integers that are read can be written and read back.
Whoever types an integer may give it up to 4300 digits, so it is short enough to be written by
as many digits; read again, these give the same integer.
-/

namespace Brainfuck.Text

-----------------------------------------------------------------------------------------
-- What can be written
-----------------------------------------------------------------------------------------

/-- Integers of so many digits are those in front of the next power of ten. -/
theorem isShort_iff {number : Int} : IsShort number ↔ number.natAbs < 10 ^ maxDigits :=
  Nat.length_toDigits_le_iff (by decide) (by decide)

/-- A power of ten needs one digit more than its exponent. -/
theorem not_length_toDigits_pow_le {digits : Nat} (positive : 0 < digits)
    : ¬ (Nat.toDigits 10 ((10 : Int) ^ digits).natAbs).length ≤ digits := by
  rw [Nat.length_toDigits_le_iff (by decide) positive, Int.natAbs_pow]
  exact Nat.lt_irrefl _

/-- The least integer that is too long to be written. -/
theorem not_isShort_pow : ¬ IsShort (10 ^ maxDigits) :=
  not_length_toDigits_pow_le (by decide)

-----------------------------------------------------------------------------------------
-- What is read is short
-----------------------------------------------------------------------------------------

/-- A digit of any script is less than ten, because it is within the ten digits of its row. -/
theorem lt_of_digitValue? {char : Char} {value : Nat} (h : digitValue? char = some value)
    : value < 10 := by
  obtain ⟨start, found, rfl⟩ := Option.map_eq_some_iff.mp h
  have row := List.find?_some found
  simp only [Bool.and_eq_true, decide_eq_true_eq] at row
  omega

/-- Digits behind a value bring it below the next power, by induction on them. -/
theorem foldl_lt_pow {digits : List Nat} (small : ∀ digit ∈ digits, digit < 10)
    {value power : Nat} (below : value < 10 ^ power)
    : digits.foldl (fun value digit => 10 * value + digit) value
      < 10 ^ (power + digits.length) := by
  induction digits generalizing value power with
  | nil => exact below
  | cons digit digits ih =>
      have next : 10 * value + digit < 10 ^ (power + 1) := by
        have := small digit (by simp)
        rw [Nat.pow_succ]
        omega
      have later := ih (fun other member => small other (by simp [member])) next
      rwa [List.foldl_cons, List.length_cons, Nat.add_comm digits.length, ← Nat.add_assoc]

/-- A number of either sign is as short as its digits. -/
theorem natAbs_splitSign_mul (chars : List Char) (value : Nat)
    : ((splitSign chars).1 * value).natAbs = value := by
  unfold splitSign
  split <;> simp

/-- What is read is short, because it has no more digits than anyone may type. -/
theorem isShort_of_readInteger {text : String} {number : Int}
    (h : readInteger text = .ok number)
    : IsShort number := by
  have signed := natAbs_splitSign_mul (text.toList.dropWhile isNumberBlank)
  unfold readInteger at h
  generalize splitSign (text.toList.dropWhile isNumberBlank) = parts at h signed
  obtain ⟨sign, unsigned⟩ := parts
  simp only at h signed
  split at h
  · contradiction
  · split at h
    · contradiction
    · rename_i short
      split at h
      · contradiction
      · cases h
        have small
            : ∀ digit ∈ (unsigned.takeWhile isNumeral).filterMap digitValue?, digit < 10 := by
          intro digit member
          obtain ⟨_, _, value⟩ := List.mem_filterMap.mp member
          exact lt_of_digitValue? value
        have below := foldl_lt_pow small (by simp : 0 < 10 ^ 0)
        rw [Nat.zero_add] at below
        rw [isShort_iff, signed]
        exact Nat.lt_of_lt_of_le below (Nat.pow_le_pow_right (by decide) (by omega))

-----------------------------------------------------------------------------------------
-- What is written is read
-----------------------------------------------------------------------------------------

theorem toNat_of_isDigit {char : Char} (h : char.isDigit = true)
    : 48 ≤ char.toNat ∧ char.toNat ≤ 57 := by
  simp only [Char.isDigit, Bool.and_eq_true, decide_eq_true_eq, UInt32.le_iff_toNat_le] at h
  exact h

/-- The first row of digits is that of ASCII. -/
theorem digitValue?_of_isDigit {char : Char} (h : char.isDigit = true)
    : digitValue? char = some (char.toNat - 48) := by
  obtain ⟨lower, upper⟩ := toNat_of_isDigit h
  have within : char.toNat < 48 + 10 := by omega
  simp [digitValue?, digitZeros, lower, within]

theorem not_isNumberBlank_of_isDigit {char : Char} (h : char.isDigit = true)
    : isNumberBlank char = false := by
  obtain ⟨lower, upper⟩ := toNat_of_isDigit h
  simp [isNumberBlank, isBlank]
  omega

section Digits

variable {digits : List Char}

/-- Digits hold no underscore, wherever one would be expected. -/
theorem underscoresSeparate_of_digits (all : ∀ char ∈ digits, char.isDigit = true)
    (expectsDigit : Bool)
    : underscoresSeparate expectsDigit digits = true := by
  induction digits generalizing expectsDigit with
  | nil => rfl
  | cons char digits ih =>
      have other : char ≠ '_' := by
        rintro rfl
        exact absurd (all '_' (by simp)) (by decide)
      have rest := ih (fun later member => all later (by simp [member])) false
      unfold underscoresSeparate
      split
      · rfl
      · simp_all
      · simp_all

theorem filterMap_digitValue? (all : ∀ char ∈ digits, char.isDigit = true)
    : digits.filterMap digitValue? = digits.map fun char => char.toNat - 48 := by
  rw [← List.filterMap_eq_map]
  apply List.filterMap_congr
  intro char member
  exact digitValue?_of_isDigit (all char member)

/-- Digits behind a sign are read as the number that they denote. -/
theorem readInteger_of_digits {text : String} {sign : Int}
    (parts : splitSign (text.toList.dropWhile isNumberBlank) = (sign, digits))
    (all : ∀ char ∈ digits, char.isDigit = true) (some : digits ≠ [])
    (short : digits.length ≤ maxDigits)
    : readInteger text = .ok (sign * Nat.ofDigitChars 10 digits 0) := by
  have numeral : ∀ char ∈ digits, isNumeral char = true := by
    intro char member
    simp [isNumeral, digitValue?_of_isDigit (all char member)]
  have taken : digits.takeWhile isNumeral = digits := List.takeWhile_eq_self_iff.mpr numeral
  have dropped : digits.dropWhile isNumeral = [] := List.dropWhile_eq_nil_iff.mpr numeral
  have value
      : numeralValue (digits.map fun char => char.toNat - 48)
        = Nat.ofDigitChars 10 digits 0 := by
    rw [numeralValue, List.foldl_map]
    rfl
  simp [readInteger, parts, taken, dropped, underscoresSeparate_of_digits all true,
    filterMap_digitValue? all, Nat.not_lt.mpr short, some, value]

end Digits

theorem isDigit_of_mem_toDigits {number : Nat} {char : Char}
    (member : char ∈ Nat.toDigits 10 number)
    : char.isDigit = true :=
  Nat.isDigit_of_mem_toDigits (by decide) (by decide) member

/-- The digits of a number in front of which nothing but a sign stands. -/
theorem readInteger_of_toDigits {text : String} {sign : Int} {number : Nat}
    (parts : splitSign (text.toList.dropWhile isNumberBlank) = (sign, Nat.toDigits 10 number))
    (short : number < 10 ^ maxDigits)
    : readInteger text = .ok (sign * number) := by
  have few : (Nat.toDigits 10 number).length ≤ maxDigits :=
    (Nat.length_toDigits_le_iff (by decide) (by decide)).mpr short
  have read :=
    readInteger_of_digits parts (fun _ => isDigit_of_mem_toDigits) Nat.toDigits_ne_nil few
  rwa [Nat.ofDigitChars_toDigits (by decide) (by decide)] at read

theorem toList_toString_ofNat (number : Nat)
    : (toString (Int.ofNat number)).toList = Nat.toDigits 10 number :=
  Nat.toList_repr

theorem toList_toString_negSucc (number : Nat)
    : (toString (Int.negSucc number)).toList = '-' :: Nat.toDigits 10 (number + 1) := by
  have written : toString (Int.negSucc number) = "-" ++ (number + 1).repr := rfl
  rw [written, String.toList_append, Nat.toList_repr]
  rfl

/-- Short integers are read back as they are written. -/
theorem readInteger_toString {number : Int} (short : IsShort number)
    : readInteger (toString number) = .ok number := by
  cases number with
  | ofNat natural =>
      have parts
          : splitSign ((toString (Int.ofNat natural)).toList.dropWhile isNumberBlank)
            = (1, Nat.toDigits 10 natural) := by
        rw [toList_toString_ofNat]
        cases digits : Nat.toDigits 10 natural with
        | nil => exact absurd digits Nat.toDigits_ne_nil
        | cons char rest =>
            have member : char ∈ Nat.toDigits 10 natural := by simp [digits]
            have digit := isDigit_of_mem_toDigits member
            rw [List.dropWhile_cons_of_neg (by simp [not_isNumberBlank_of_isDigit digit])]
            unfold splitSign
            split
            · simp_all
            · simp_all
            · rfl
      rw [readInteger_of_toDigits parts (isShort_iff.mp short)]
      simp
  | negSucc natural =>
      have parts
          : splitSign ((toString (Int.negSucc natural)).toList.dropWhile isNumberBlank)
            = (-1, Nat.toDigits 10 (natural + 1)) := by
        rw [toList_toString_negSucc, List.dropWhile_cons_of_neg (by decide)]
        rfl
      rw [readInteger_of_toDigits parts (isShort_iff.mp short)]
      simp [Int.negSucc_eq]

end Brainfuck.Text
