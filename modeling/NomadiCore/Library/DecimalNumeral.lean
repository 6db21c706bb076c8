import Mathlib.Data.List.TakeWhile
import Mathlib.Data.Rat.Cast.Defs
import Mathlib.Tactic.Common
import NomadiCore.Library.BinaryFloat

/-!
# Decimal numerals at the start of a text

Loosely typed languages and databases read a number off the start of a text:
blanks, a sign, digits, a fraction and an exponent, and whatever follows is
ignored.  `number` is the exact value that is written.  `toInteger` truncates
and saturates, of a numeral with a fraction or an exponent the nearest double;
`toColumn` rounds half away from zero and saturates; `compared` is what the
number is compared as.
-/

namespace NomadiCore.Library.DecimalNumeral

open NomadiCore.Library.BinaryFloat

def isBlank (character : Char) : Bool :=
  character ∈ [' ', '\t', '\n', '\r', '\x0b', '\x0c']

/-- Value of a run of decimal digits. -/
def digitsValue (digits : List Char) : Nat :=
  digits.foldl
    (fun value digit => 10 * value + (digit.toNat - '0'.toNat)) 0

/-- An optional sign, as whether it is negative, and the rest. -/
def signPart : List Char → Bool × List Char
  | '-' :: rest => (true, rest)
  | '+' :: rest => (false, rest)
  | text => (false, text)

/-- The digits after a decimal point, if there is one, and the rest. -/
def fractionPart : List Char → List Char × List Char
  | '.' :: rest => (rest.takeWhile Char.isDigit, rest.dropWhile Char.isDigit)
  | text => ([], text)

/-- An exponent, zero when none is written, and the rest. -/
def exponentPart (text : List Char) : Int × List Char :=
  match text with
  | [] => (0, [])
  | mark :: rest =>
      if mark = 'e' ∨ mark = 'E' then
        let (negative, unsigned) := signPart rest
        match unsigned.takeWhile Char.isDigit with
        | [] => (0, text)
        | digits =>
            (if negative then -(digitsValue digits : Int)
              else digitsValue digits,
              unsigned.dropWhile Char.isDigit)
      else (0, text)

/-- Shift the decimal point. -/
def scale (mantissa : ℚ) (exponent : Int) : ℚ :=
  if 0 ≤ exponent then mantissa * 10 ^ exponent.toNat
  else mantissa / 10 ^ (-exponent).toNat

/-- The numeral a text starts with and what follows it, if it has a digit. -/
def numeral (text : List Char) : Option (ℚ × List Char) :=
  let (negative, unsigned) := signPart (text.dropWhile isBlank)
  let whole := unsigned.takeWhile Char.isDigit
  let (fraction, afterFraction) :=
    fractionPart (unsigned.dropWhile Char.isDigit)
  let (exponent, rest) := exponentPart afterFraction
  if whole ++ fraction = [] then none
  else
    let magnitude :=
      scale (digitsValue (whole ++ fraction))
        (exponent - fraction.length)
    some (if negative then -magnitude else magnitude, rest)

/-- The number a text is read as; zero when it starts with no numeral. -/
def number (text : String) : ℚ :=
  match numeral text.toList with
  | some (value, _) => value
  | none => 0

/-- The number a text is, when nothing follows the numeral. -/
def numeric? (text : String) : Option ℚ :=
  match numeral text.toList with
  | some (value, []) => some value
  | _ => none

/-- Bring an integer into a range. -/
def saturate (low high value : Int) : Int :=
  max low (min high value)

/-- The numeral has neither a decimal point nor an exponent. -/
def isWhole (text : List Char) : Bool :=
  let unsigned := (signPart (text.dropWhile isBlank)).2
  let rest := unsigned.dropWhile Char.isDigit
  rest.head? ≠ some '.' && (exponentPart rest).2 = rest

/-- The number a text is cast as: of a numeral that is not whole, a double. -/
def castNumber (text : String) : ℚ :=
  if isWhole text.toList then number text else toDouble (number text)

/-- Conversion to a signed 64-bit integer: truncate, then saturate. -/
def toInteger (text : String) : Int :=
  let value := castNumber text
  saturate (-9223372036854775808) 9223372036854775807
    (value.num.tdiv value.den)

/--
The number a text is compared as with the integers of a 32-bit column: its
double.  Whole numbers need no rounding: one beyond 53 bits is rounded to
another that is out of the range of the column, too.
-/
def compared (text : String) : ℚ :=
  let value := number text
  if value.den = 1 then value else toDouble value

/-- Conversion to a signed 32-bit column: round, then saturate. -/
def toColumn (text : String) : Int :=
  let value := number text
  saturate (-2147483648) 2147483647
    ((2 * value.num + value.num.sign * value.den).tdiv (2 * value.den))

/-- An integer stored in a signed 32-bit column. -/
def fitColumn (value : Int) : Int :=
  saturate (-2147483648) 2147483647 value

theorem fitColumn_le (value : Int) : fitColumn value ≤ 2147483647 := by
  simp only [fitColumn, saturate]
  omega

theorem toColumn_le (text : String) : toColumn text ≤ 2147483647 :=
  fitColumn_le _

theorem fitColumn_of_le
    {value : Nat} (fits : (value : Int) ≤ 2147483647) :
    fitColumn value = value := by
  simp only [fitColumn, saturate]
  omega

/-! ## Reading back what is written -/

theorem isBlank_eq_false_of_isDigit
    {character : Char} (digit : character.isDigit) :
    isBlank character = false := by
  simp only [isBlank, List.mem_cons, List.not_mem_nil, or_false,
    decide_eq_false_iff_not]
  rintro (rfl | rfl | rfl | rfl | rfl | rfl) <;> revert digit <;> decide

theorem signPart_of_isDigit
    {digit : Char} (isDigit : digit.isDigit) (rest : List Char) :
    signPart (digit :: rest) = (false, digit :: rest) := by
  unfold signPart
  split
  · rename_i equal
    cases equal
    exact absurd isDigit (by decide)
  · rename_i equal
    cases equal
    exact absurd isDigit (by decide)
  · rfl

/-- Digits are read as their value, to the end. -/
theorem numeral_digits
    {digits : List Char} (nonempty : digits ≠ [])
    (allDigits : ∀ digit ∈ digits, digit.isDigit) :
    numeral digits = some ((digitsValue digits : ℚ), []) := by
  have noBlank : digits.dropWhile isBlank = digits := by
    cases digits with
    | nil => rfl
    | cons digit rest =>
        rw [List.dropWhile_cons,
          isBlank_eq_false_of_isDigit (allDigits digit (by simp))]
        rfl
  have noSign : signPart digits = (false, digits) := by
    cases digits with
    | nil => rfl
    | cons digit rest =>
        exact signPart_of_isDigit (allDigits digit (by simp)) rest
  have whole : digits.takeWhile Char.isDigit = digits :=
    List.takeWhile_eq_self_iff.mpr allDigits
  have noRest : digits.dropWhile Char.isDigit = [] :=
    List.dropWhile_eq_nil_iff.mpr allDigits
  simp [numeral, noBlank, noSign, whole, noRest, fractionPart,
    exponentPart, nonempty, scale]

theorem digitsValue_toDigits (value : Nat) :
    digitsValue (Nat.toDigits 10 value) = value := by
  have read := @Nat.ofDigitChars_ten_toDigits value
  rw [Nat.ofDigitChars_eq_foldl] at read
  exact read

/-- A written number is read back. -/
theorem number_toString (value : Nat) :
    number (toString value) = value := by
  have digits : (toString value).toList = Nat.toDigits 10 value :=
    Nat.toList_repr
  have read : numeral (Nat.toDigits 10 value) = some ((value : ℚ), []) := by
    rw [numeral_digits Nat.toDigits_ne_nil
      (fun digit member =>
        Nat.isDigit_of_mem_toDigits (by decide) (by decide) member),
      digitsValue_toDigits]
  simp only [number, digits, read]

theorem compared_of_number {text : String} {value : Int}
    (read : number text = value) : compared text = value := by
  simp [compared, read]

/-- A number between two small integers is cast to one between them. -/
theorem toInteger_bounds
    {text : String} {low high : Int} (positive : 0 ≤ low)
    (small : high < 2 ^ 53)
    (above : (low : ℚ) ≤ number text) (below : number text ≤ high) :
    low ≤ toInteger text ∧ toInteger text ≤ high := by
  have few : |number text| < 2 ^ 53 := by
    have start : (0 : ℚ) ≤ low := by exact_mod_cast positive
    have limit : (high : ℚ) < 2 ^ 53 := by exact_mod_cast small
    rw [abs_of_nonneg (start.trans above)]
    exact below.trans_lt limit
  have castAbove : (low : ℚ) ≤ castNumber text := by
    unfold castNumber
    split
    · exact above
    · exact le_toDouble few above
  have castBelow : castNumber text ≤ high := by
    unfold castNumber
    split
    · exact below
    · exact toDouble_le few below
  have nonneg : 0 ≤ (castNumber text).num := by
    rw [Rat.num_nonneg]
    exact le_trans (by exact_mod_cast positive) castAbove
  have floor : (castNumber text).num.tdiv (castNumber text).den =
      ⌊castNumber text⌋ := by
    rw [Int.tdiv_eq_ediv_of_nonneg nonneg, Rat.floor_def']
  have floorAbove : low ≤ ⌊castNumber text⌋ := Int.le_floor.mpr castAbove
  have floorBelow : ⌊castNumber text⌋ ≤ high := by
    have cast := (Int.floor_le (castNumber text)).trans castBelow
    exact_mod_cast cast
  simp only [toInteger, floor, saturate]
  omega

theorem toColumn_toString (value : Nat) :
    toColumn (toString value) = fitColumn value := by
  have rounded :
      (2 * (value : Int) + Int.sign value * 1).tdiv (2 * 1) = value := by
    rcases Nat.eq_zero_or_pos value with rfl | positive
    · rfl
    · rw [Int.sign_eq_one_of_pos (by omega), Int.tdiv_eq_ediv_of_nonneg
        (by omega)]
      omega
  simp only [toColumn, number_toString, Rat.num_natCast, Rat.den_natCast,
    Nat.cast_one, rounded, fitColumn]

/-! ## How many signs a numeral has -/

theorem count_dropWhile
    {skipped : Char → Bool} {wanted : Char} (kept : skipped wanted = false)
    (text : List Char) :
    (text.dropWhile skipped).count wanted = text.count wanted := by
  induction text with
  | nil => rfl
  | cons character rest inductionHypothesis =>
      rw [List.dropWhile_cons]
      split
      · rename_i isSkipped
        have different : character ≠ wanted := by
          rintro rfl
          rw [kept] at isSkipped
          cases isSkipped
        rw [inductionHypothesis, List.count_cons_of_ne different]
      · rfl

theorem count_signPart (text : List Char) :
    text.count '-' ≤ (signPart text).2.count '-' + 1 := by
  unfold signPart
  split
  · simp
  · simp
  · simp

theorem count_fractionPart (text : List Char) :
    (fractionPart text).2.count '-' = text.count '-' := by
  unfold fractionPart
  split
  · rw [count_dropWhile (by decide)]
    simp
  · rfl

theorem count_exponentPart (text : List Char) :
    text.count '-' ≤ (exponentPart text).2.count '-' + 1 := by
  cases text with
  | nil => simp [exponentPart]
  | cons mark rest =>
      simp only [exponentPart]
      split
      · rename_i isMark
        have noSign : mark ≠ '-' := by
          rcases isMark with rfl | rfl <;> decide
        split
        · simp
        · rw [count_dropWhile (by decide), List.count_cons_of_ne noSign]
          exact count_signPart rest
      · simp

/-- A numeral has a sign and an exponent, so at most two minuses. -/
theorem numeral_count_le
    {text rest : List Char} {value : ℚ}
    (read : numeral text = some (value, rest)) :
    text.count '-' ≤ rest.count '-' + 2 := by
  simp only [numeral] at read
  split at read
  · cases read
  · cases read
    have sign := count_signPart (text.dropWhile isBlank)
    rw [count_dropWhile (by decide)] at sign
    have exponent := count_exponentPart
      (fractionPart
        ((signPart (text.dropWhile isBlank)).2.dropWhile Char.isDigit)).2
    rw [count_fractionPart, count_dropWhile (by decide)] at exponent
    omega

/-- A text with more minuses is not a number. -/
theorem numeric?_eq_none_of_count
    {text : String} (minuses : 2 < text.toList.count '-') :
    numeric? text = none := by
  unfold numeric?
  split
  · rename_i value read
    have atMost := numeral_count_le read
    simp at atMost
    omega
  · rfl

end NomadiCore.Library.DecimalNumeral
