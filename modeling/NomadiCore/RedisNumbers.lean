import Mathlib.Algebra.Ring.Nat
import Mathlib.Data.List.Basic
import Mathlib.Tactic.Common

/-!
# Numbers in Redis strings

A counter of the Redis server is a string.  `string2ll` of `util.c` reads it
digit by digit and checks for overflow before each step; `ll2string` writes it
back into a buffer from its end, two digits at a time, after `digits10` has
computed the length.
-/

namespace NomadiCore.Redis

/-! ## The functions -/

def llongMax : Nat := 9223372036854775807

def ullongMax : Nat := 18446744073709551615

/-- The values of a `long long`. -/
def InLongLong (value : Int) : Prop :=
  -9223372036854775808 ≤ value ∧ value ≤ 9223372036854775807

instance (value : Int) : Decidable (InLongLong value) :=
  inferInstanceAs (Decidable (_ ∧ _))

def digitOf (character : Char) : Nat := character.toNat - '0'.toNat

/-- The `while` loop of `string2ll`: the value and the rest of the string. -/
def parseDigits (value : Nat) : List Char → Option (Nat × List Char)
  | [] => some (value, [])
  | first :: rest =>
      if first.isDigit then
        if value > ullongMax / 10 then none
        else if value * 10 > ullongMax - digitOf first then none
        else parseDigits (value * 10 + digitOf first) rest
      else some (value, first :: rest)

/-- The digits after the sign; the first one is not zero. -/
def parseMagnitude : List Char → Option Nat
  | [] => none
  | first :: rest =>
      if '1' ≤ first ∧ first ≤ '9' then
        match parseDigits (digitOf first) rest with
        | some (value, []) => some value
        | _ => none
      else none

def string2ll (string : List Char) : Option Int :=
  match string with
  | ['0'] => some 0
  | '-' :: rest =>
      (parseMagnitude rest).bind fun value =>
        if value > llongMax + 1 then none else some (-value)
  | string =>
      (parseMagnitude string).bind fun value =>
        if value > llongMax then none else some value

def digits10 (value : Nat) : Nat :=
  if value < 10 then 1
  else if value < 100 then 2
  else if value < 1000 then 3
  else if value < 1000000000000 then
    if value < 100000000 then
      if value < 1000000 then
        if value < 10000 then 4
        else 5 + if value ≥ 100000 then 1 else 0
      else 7 + if value ≥ 10000000 then 1 else 0
    else if value < 10000000000 then
      9 + if value ≥ 1000000000 then 1 else 0
    else 11 + if value ≥ 100000000000 then 1 else 0
  else 12 + digits10 (value / 1000000000000)
termination_by value

/-- The table of the two-digit numerals. -/
def digits : List Char :=
  "0001020304050607080910111213141516171819".toList ++
    "2021222324252627282930313233343536373839".toList ++
    "4041424344454647484950515253545556575859".toList ++
    "6061626364656667686970717273747576777879".toList ++
    "8081828384858687888990919293949596979899".toList

def digitAt (index : Nat) : Char := digits.getD index '\x00'

/-- `dst[next] = ...; dst[next - 1] = ...` for the numeral of a pair. -/
def writePair (buffer : List Char) (next pair : Nat) : List Char :=
  (buffer.set next (digitAt (pair * 2 + 1))).set (next - 1)
    (digitAt (pair * 2))

/-- The loop of `ll2string`, and the last one or two digits. -/
def writeDigits (value next : Nat) (buffer : List Char) : List Char :=
  if 100 ≤ value then
    writeDigits (value / 100) (next - 2)
      (writePair buffer next (value % 100))
  else if value < 10 then
    buffer.set next (Char.ofNat ('0'.toNat + value))
  else writePair buffer next value
termination_by value

/-- The string written into a buffer; `none` when it does not fit. -/
def ll2string (dstlen : Nat) (svalue : Int) : Option (List Char) :=
  let negative := svalue < 0
  let value := svalue.natAbs
  let length := digits10 value + if negative then 1 else 0
  if length ≥ dstlen then none
  else
    let buffer :=
      writeDigits value (length - 1) (List.replicate length '\x00')
    some (if negative then buffer.set 0 '-' else buffer)

/-- The decimal numeral of a number. -/
def numeral (value : Int) : List Char :=
  if value < 0 then '-' :: Nat.toDigits 10 value.natAbs
  else Nat.toDigits 10 value.natAbs

/-! ## Reading -/

theorem digitOf_lt {character : Char} (digit : character.isDigit = true) :
    digitOf character < 10 := by
  have bounds := Char.isDigit_iff_toNat.mp digit
  have zero : '0'.toNat = 48 := rfl
  have nine : '9'.toNat = 57 := rfl
  simp only [digitOf]
  omega

theorem digitChar_digitOf {character : Char}
    (digit : character.isDigit = true) :
    Nat.digitChar (digitOf character) = character := by
  have bounds := Char.isDigit_iff_toNat.mp digit
  have zero : '0'.toNat = 48 := rfl
  apply Char.toNat_inj.mp
  rw [Nat.toNat_digitChar_of_lt_ten (digitOf_lt digit)]
  simp only [digitOf]
  omega

/-- One more digit. -/
theorem toDigits_snoc {value : Nat} (positive : 0 < value)
    {character : Char} (digit : character.isDigit = true) :
    Nat.toDigits 10 (value * 10 + digitOf character) =
      Nat.toDigits 10 value ++ [character] := by
  have appended := Nat.toDigits_append_toDigits
    (show 1 < 10 by decide) positive (digitOf_lt digit)
  rw [Nat.toDigits_of_lt_base (digitOf_lt digit),
    digitChar_digitOf digit] at appended
  rw [appended, Nat.mul_comm]

theorem toDigits_injective {first second : Nat}
    (same : Nat.toDigits 10 first = Nat.toDigits 10 second) :
    first = second := by
  rw [← @Nat.ofDigitChars_ten_toDigits first, same,
    Nat.ofDigitChars_ten_toDigits]

/-- A number is at least the number its first digits stand for. -/
theorem le_of_toDigits_prefix {first value : Nat} {rest : List Char}
    (extended : Nat.toDigits 10 first ++ rest = Nat.toDigits 10 value) :
    first ≤ value := by
  have read := @Nat.ofDigitChars_ten_toDigits value
  rw [← extended, Nat.ofDigitChars_append, Nat.ofDigitChars_ten_toDigits,
    Nat.ofDigitChars_eq_ofDigitChars_zero] at read
  have scaled : first ≤ 10 ^ rest.length * first :=
    Nat.le_mul_of_pos_left first (Nat.pow_pos (by decide))
  omega

/--
The loop reads all characters exactly when they continue the numeral of the
value so far, and the whole fits into 64 bits.
-/
theorem parseDigits_iff {value : Nat} (positive : 0 < value)
    (fits : value ≤ ullongMax) (characters : List Char) (result : Nat) :
    parseDigits value characters = some (result, []) ↔
      result ≤ ullongMax ∧
        Nat.toDigits 10 value ++ characters = Nat.toDigits 10 result := by
  induction characters generalizing value with
  | nil =>
      simp only [parseDigits, List.append_nil, Option.some.injEq,
        Prod.mk.injEq, and_true]
      constructor
      · rintro rfl
        exact ⟨fits, rfl⟩
      · rintro ⟨-, same⟩
        exact toDigits_injective same
  | cons first rest inductionHypothesis =>
      rw [parseDigits]
      by_cases digit : first.isDigit = true
      · have shifted :
            Nat.toDigits 10 value ++ first :: rest =
              Nat.toDigits 10 (value * 10 + digitOf first) ++ rest := by
          rw [toDigits_snoc positive digit, List.append_assoc]
          rfl
        have small := digitOf_lt digit
        rw [if_pos digit, shifted]
        by_cases large : value > ullongMax / 10 ∨
            value * 10 > ullongMax - digitOf first
        · -- neither side lets the value grow over 64 bits
          have refused :
              (if value > ullongMax / 10 then none
                else if value * 10 > ullongMax - digitOf first then none
                else parseDigits (value * 10 + digitOf first) rest) =
                (none : Option (Nat × List Char)) := by
            rcases large with tooLarge | tooLarge
            · rw [if_pos tooLarge]
            · rw [if_pos tooLarge, ite_self]
          rw [refused]
          constructor
          · intro impossible
            cases impossible
          · rintro ⟨bound, extended⟩
            have atLeast := le_of_toDigits_prefix extended
            simp only [ullongMax] at *
            omega
        · have roomLeft : value * 10 + digitOf first ≤ ullongMax := by
            simp only [ullongMax] at *
            omega
          rw [not_or] at large
          rw [if_neg large.1, if_neg large.2]
          exact inductionHypothesis (by omega) roomLeft
      · rw [if_neg digit]
        constructor
        · intro impossible
          cases impossible
        · rintro ⟨-, extended⟩
          have member : first ∈ Nat.toDigits 10 result := by
            rw [← extended]
            simp
          exact absurd
            (Nat.isDigit_of_mem_toDigits (by decide) (by decide) member)
            digit

/-- The first digit of a positive number is not zero. -/
theorem exists_head_toDigits {value : Nat} (positive : 0 < value) :
    ∃ first rest, Nat.toDigits 10 value = first :: rest ∧
      '1' ≤ first ∧ first ≤ '9' := by
  induction value using Nat.strongRecOn with
  | ind value inductionHypothesis =>
      by_cases small : value < 10
      · refine ⟨Nat.digitChar value, [],
          Nat.toDigits_of_lt_base small, ?_⟩
        have each : ∀ digit : Fin 10, 0 < digit.val →
            '1' ≤ Nat.digitChar digit.val ∧
              Nat.digitChar digit.val ≤ '9' := by
          decide
        exact each ⟨value, small⟩ positive
      · obtain ⟨first, rest, isHead, bounds⟩ :=
          inductionHypothesis (value / 10) (by omega) (by omega)
        refine ⟨first, rest ++ [Nat.digitChar (value % 10)], ?_, bounds⟩
        rw [Nat.toDigits_of_base_le (by decide) (by omega), isHead]
        rfl

theorem isDigit_of_between {character : Char}
    (bounds : '1' ≤ character ∧ character ≤ '9') :
    character.isDigit = true ∧ 0 < digitOf character := by
  have low : '1'.toNat ≤ character.toNat := bounds.1
  have high : character.toNat ≤ '9'.toNat := bounds.2
  have one : '1'.toNat = 49 := rfl
  have zero : '0'.toNat = 48 := rfl
  constructor
  · apply Char.isDigit_iff_toNat.mpr
    omega
  · simp only [digitOf]
    omega

theorem parseMagnitude_iff (characters : List Char) (value : Nat) :
    parseMagnitude characters = some value ↔
      0 < value ∧ value ≤ ullongMax ∧
        characters = Nat.toDigits 10 value := by
  cases characters with
  | nil =>
      constructor
      · intro impossible
        cases impossible
      · rintro ⟨-, -, empty⟩
        exact absurd empty.symm Nat.toDigits_ne_nil
  | cons first rest =>
      rw [parseMagnitude]
      by_cases bounds : '1' ≤ first ∧ first ≤ '9'
      · obtain ⟨digit, positive⟩ := isDigit_of_between bounds
        have small := digitOf_lt digit
        have numeralFirst : Nat.toDigits 10 (digitOf first) = [first] := by
          rw [Nat.toDigits_of_lt_base small, digitChar_digitOf digit]
        have read := parseDigits_iff positive
          (show digitOf first ≤ ullongMax by
            have maximum : ullongMax = 18446744073709551615 := rfl
            omega) rest value
        rw [numeralFirst, List.singleton_append] at read
        rw [if_pos bounds]
        have whole :
            (match parseDigits (digitOf first) rest with
              | some (value, []) => some value
              | _ => none) = some value ↔
              parseDigits (digitOf first) rest = some (value, []) := by
          split
          · rename_i found
            rw [found]
            simp
          · rename_i other
            constructor
            · intro impossible
              cases impossible
            · intro found
              exact absurd found (other value)
        rw [whole, read]
        constructor
        · rintro ⟨bound, extended⟩
          refine ⟨?_, bound, extended⟩
          rcases Nat.eq_zero_or_pos value with rfl | isPositive
          · rw [Nat.toDigits_zero] at extended
            injection extended with isZero
            rw [isZero] at positive
            exact absurd positive (by decide)
          · exact isPositive
        · rintro ⟨-, bound, extended⟩
          exact ⟨bound, extended⟩
      · rw [if_neg bounds]
        constructor
        · intro impossible
          cases impossible
        · rintro ⟨positive, -, extended⟩
          obtain ⟨head, tail, isHead, headBounds⟩ :=
            exists_head_toDigits positive
          rw [isHead] at extended
          injection extended with sameHead
          rw [sameHead] at bounds
          exact absurd headBounds bounds

theorem ne_minus_of_mem_toDigits {value : Nat} {character : Char}
    (member : character ∈ Nat.toDigits 10 value) : character ≠ '-' := by
  rintro rfl
  have digit : '-'.isDigit = true :=
    Nat.isDigit_of_mem_toDigits (by decide) (by decide) member
  exact absurd digit (by decide)

/-- The strings that are read are the numerals, of 64-bit numbers only. -/
theorem string2ll_iff (string : List Char) (value : Int) :
    string2ll string = some value ↔
      InLongLong value ∧ string = numeral value := by
  have signed : llongMax = 9223372036854775807 := rfl
  have unsigned : ullongMax = 18446744073709551615 := rfl
  unfold string2ll
  split
  · -- the string is a single zero
    constructor
    · intro equal
      cases equal
      exact ⟨by decide, by decide⟩
    · rintro ⟨-, isNumeral⟩
      unfold numeral at isNumeral
      split at isNumeral
      · cases isNumeral
      · have isZero : 0 = value.natAbs := by
          apply toDigits_injective
          rw [← isNumeral, Nat.toDigits_zero]
        rw [Option.some.injEq]
        omega
  · rename_i rest
    rw [Option.bind_eq_some_iff]
    constructor
    · rintro ⟨magnitude, read, checked⟩
      obtain ⟨positive, -, isNumeral⟩ := (parseMagnitude_iff _ _).mp read
      split at checked
      · cases checked
      · cases checked
        refine ⟨⟨by omega, by omega⟩, ?_⟩
        rw [numeral, if_pos (by omega), isNumeral, Int.natAbs_neg,
          Int.natAbs_natCast]
    · rintro ⟨range, isNumeral⟩
      unfold numeral at isNumeral
      split at isNumeral
      · rename_i negative
        injection isNumeral with _ isRest
        refine ⟨value.natAbs, (parseMagnitude_iff _ _).mpr
          ⟨by omega, ?_, isRest⟩, ?_⟩
        · have low := range.1
          omega
        · have low := range.1
          rw [if_neg (by omega), Option.some.injEq]
          omega
      · have member : '-' ∈ Nat.toDigits 10 value.natAbs := by
          rw [← isNumeral]
          exact List.mem_cons_self
        exact absurd rfl (ne_minus_of_mem_toDigits member)
  · rename_i notZero noSign
    rw [Option.bind_eq_some_iff]
    constructor
    · rintro ⟨magnitude, read, checked⟩
      obtain ⟨positive, -, isNumeral⟩ := (parseMagnitude_iff _ _).mp read
      split at checked
      · cases checked
      · cases checked
        refine ⟨⟨by omega, by omega⟩, ?_⟩
        rw [numeral, if_neg (by omega), isNumeral, Int.natAbs_natCast]
    · rintro ⟨range, isNumeral⟩
      have high := range.2
      have low := range.1
      unfold numeral at isNumeral
      split at isNumeral
      · exact absurd isNumeral (noSign _)
      · have positive : 0 < value.natAbs := by
          rcases Nat.eq_zero_or_pos value.natAbs with isZero | isPositive
          · rw [isZero, Nat.toDigits_zero] at isNumeral
            exact absurd isNumeral notZero
          · exact isPositive
        refine ⟨value.natAbs, (parseMagnitude_iff _ _).mpr
          ⟨positive, by omega, isNumeral⟩, ?_⟩
        rw [if_neg (by omega), Option.some.injEq]
        omega

/-! ## Writing -/

/-- Each division by ten takes one digit. -/
theorem length_toDigits_div {value count : Nat} (large : 10 ^ count ≤ value) :
    (Nat.toDigits 10 value).length =
      count + (Nat.toDigits 10 (value / 10 ^ count)).length := by
  induction count generalizing value with
  | zero => simp
  | succ count inductionHypothesis =>
      have power : 10 ^ (count + 1) = 10 ^ count * 10 :=
        Nat.pow_succ 10 count
      have positive : 0 < 10 ^ count := Nat.pow_pos (by decide)
      have atLeastTen : 10 ≤ value := by omega
      have shifted : 10 ^ count ≤ value / 10 := by
        rw [Nat.le_div_iff_mul_le (by decide)]
        omega
      have later := inductionHypothesis shifted
      rw [Nat.toDigits_of_base_le (by decide) atLeastTen,
        List.length_append, later, Nat.div_div_eq_div_mul, power,
        Nat.mul_comm 10 (10 ^ count), List.length_singleton]
      omega

theorem length_toDigits_of_bounds {value count : Nat}
    (low : 10 ^ count ≤ value) (high : value < 10 ^ (count + 1)) :
    (Nat.toDigits 10 value).length = count + 1 := by
  have quotient : value / 10 ^ count < 10 := by
    rw [Nat.div_lt_iff_lt_mul (Nat.pow_pos (by decide))]
    rw [Nat.pow_succ] at high
    omega
  rw [length_toDigits_div low, Nat.toDigits_of_lt_base quotient]
  rfl

/-- The nested comparisons count the digits. -/
theorem digits10_eq (value : Nat) :
    digits10 value = (Nat.toDigits 10 value).length := by
  induction value using Nat.strongRecOn with
  | ind value inductionHypothesis =>
      have counted := fun count =>
        @length_toDigits_of_bounds value count
      rw [digits10]
      split_ifs
      · rw [Nat.toDigits_of_lt_base (by assumption)]
        rfl
      · rw [counted 1 (by omega) (by omega)]
      · rw [counted 2 (by omega) (by omega)]
      · rw [counted 3 (by omega) (by omega)]
      · rw [counted 5 (by omega) (by omega)]
      · rw [counted 4 (by omega) (by omega)]
      · rw [counted 7 (by omega) (by omega)]
      · rw [counted 6 (by omega) (by omega)]
      · rw [counted 9 (by omega) (by omega)]
      · rw [counted 8 (by omega) (by omega)]
      · rw [counted 11 (by omega) (by omega)]
      · rw [counted 10 (by omega) (by omega)]
      · have power : 10 ^ 12 = 1000000000000 := by decide
        rw [inductionHypothesis _ (by omega),
          @length_toDigits_div value 12 (by omega), power]

/-- The table holds the two digits of every number under a hundred. -/
theorem digitAt_pair {pair : Nat} (small : pair < 100) :
    digitAt (pair * 2) = Nat.digitChar (pair / 10) ∧
      digitAt (pair * 2 + 1) = Nat.digitChar (pair % 10) := by
  have table : ((List.range 100).all fun pair =>
      digitAt (pair * 2) = Nat.digitChar (pair / 10) &&
        digitAt (pair * 2 + 1) = Nat.digitChar (pair % 10)) = true := by
    decide +kernel
  have entry := List.all_eq_true.mp table pair (List.mem_range.mpr small)
  simpa using entry

/-- Two digits written over the last two characters of the front. -/
theorem writePair_append {pair : Nat} (small : pair < 100)
    (front tail : List Char) (one other : Char) :
    writePair (front ++ one :: other :: tail) (front.length + 1) pair =
      front ++ Nat.digitChar (pair / 10) ::
        Nat.digitChar (pair % 10) :: tail := by
  obtain ⟨first, second⟩ := digitAt_pair small
  simp [writePair, first, second]

theorem toDigits_pair {value : Nat} (large : 100 ≤ value) :
    Nat.toDigits 10 value =
      Nat.toDigits 10 (value / 100) ++
        [Nat.digitChar (value % 100 / 10),
          Nat.digitChar (value % 100 % 10)] := by
  have tens : value / 10 % 10 = value % 100 / 10 := by omega
  have ones : value % 10 = value % 100 % 10 := by omega
  rw [Nat.toDigits_of_base_le (by decide) (show 10 ≤ value by omega),
    Nat.toDigits_of_base_le (by decide) (show 10 ≤ value / 10 by omega),
    Nat.div_div_eq_div_mul, tens, ones, List.append_assoc]
  rfl

theorem exists_append_pair {size : Nat} {room : List Char}
    (length : room.length = size + 2) :
    ∃ rest one other,
      room = rest ++ [one, other] ∧ rest.length = size := by
  refine ⟨room.take size, room[size], room[size + 1], ?_, ?_⟩
  · apply List.ext_getElem
    · simp [length]
    · intro index inside _
      by_cases early : index < size
      · simp [early, length]
      · have two : index = size ∨ index = size + 1 := by omega
        rcases two with rfl | rfl
        · simp [length]
        · simp [length]
  · simp [length]

/--
The loop fills the end of the front with the numeral, and leaves what is
before and after it.
-/
theorem writeDigits_append
    (value : Nat) (lead tail : List Char) (room : List Char)
    (fits : room.length = (Nat.toDigits 10 value).length) :
    writeDigits value (lead.length + room.length - 1)
        (lead ++ room ++ tail) =
      lead ++ Nat.toDigits 10 value ++ tail := by
  induction value using Nat.strongRecOn generalizing room tail with
  | ind value inductionHypothesis =>
      rw [writeDigits]
      by_cases large : 100 ≤ value
      · have remainder : value % 100 < 100 := Nat.mod_lt value (by decide)
        rw [toDigits_pair large, List.length_append] at fits
        obtain ⟨rest, one, other, rfl, restLength⟩ := exists_append_pair fits
        have position :
            lead.length + (rest ++ [one, other]).length - 1 =
              (lead ++ rest).length + 1 := by
          simp only [List.length_append, List.length_cons, List.length_nil]
          omega
        have buffer :
            lead ++ (rest ++ [one, other]) ++ tail =
              (lead ++ rest) ++ one :: other :: tail := by
          simp
        have before :
            (lead ++ rest).length + 1 - 2 = lead.length + rest.length - 1 := by
          simp only [List.length_append]
          omega
        have later := inductionHypothesis (value / 100) (by omega)
          (Nat.digitChar (value % 100 / 10) ::
            Nat.digitChar (value % 100 % 10) :: tail) rest restLength
        rw [if_pos large, position, buffer, writePair_append remainder,
          before, later, toDigits_pair large]
        simp
      · rw [if_neg large]
        by_cases small : value < 10
        · rw [Nat.toDigits_of_lt_base small, List.length_singleton] at fits
          obtain ⟨only, rfl⟩ := List.length_eq_one_iff.mp fits
          have written :
              Char.ofNat ('0'.toNat + value) = Nat.digitChar value := by
            have each : ∀ digit : Fin 10,
                Char.ofNat ('0'.toNat + digit.val) =
                  Nat.digitChar digit.val := by
              decide
            exact each ⟨value, small⟩
          rw [if_pos small, written, Nat.toDigits_of_lt_base small]
          simp
        · have pair :
              Nat.toDigits 10 value =
                [Nat.digitChar (value / 10), Nat.digitChar (value % 10)] := by
            rw [Nat.toDigits_of_base_le (by decide) (by omega),
              Nat.toDigits_of_lt_base (by omega)]
            rfl
          rw [pair] at fits
          obtain ⟨rest, one, other, rfl, restLength⟩ := exists_append_pair fits
          obtain rfl := List.length_eq_zero_iff.mp restLength
          have written := @writePair_append value (by omega) lead tail
            one other
          rw [if_neg small, pair]
          simpa using written

/-- What is written is the numeral, when it fits. -/
theorem ll2string_eq (dstlen : Nat) (value : Int) :
    ll2string dstlen value =
      if (numeral value).length < dstlen then some (numeral value)
      else none := by
  have length := digits10_eq value.natAbs
  by_cases negative : value < 0
  · have isNumeral : numeral value =
        '-' :: Nat.toDigits 10 value.natAbs := by
      rw [numeral, if_pos negative]
    have written := writeDigits_append value.natAbs ['\x00'] []
      (List.replicate (digits10 value.natAbs) '\x00')
      (by rw [List.length_replicate, length])
    simp only [List.append_nil, List.singleton_append, List.length_singleton,
      List.length_replicate, ← List.replicate_succ] at written
    simp only [ll2string, negative, if_true, isNumeral, List.length_cons,
      ← length]
    rw [Nat.add_comm 1] at written
    by_cases fits : digits10 value.natAbs + 1 < dstlen
    · rw [if_neg (by omega), if_pos fits, written]
      rfl
    · rw [if_pos (by omega), if_neg fits]
  · have isNumeral : numeral value = Nat.toDigits 10 value.natAbs := by
      rw [numeral, if_neg negative]
    have written := writeDigits_append value.natAbs [] []
      (List.replicate (digits10 value.natAbs) '\x00')
      (by rw [List.length_replicate, length])
    simp only [List.append_nil, List.nil_append, List.length_nil,
      List.length_replicate, Nat.zero_add] at written
    simp only [ll2string, negative, if_false, isNumeral, ← length,
      Nat.add_zero]
    by_cases fits : digits10 value.natAbs < dstlen
    · rw [if_neg (by omega), if_pos fits, written]
    · rw [if_pos (by omega), if_neg fits]

theorem numeral_length_le {value : Int} (range : InLongLong value) :
    (numeral value).length ≤ 20 := by
  obtain ⟨low, high⟩ := range
  have digits : (Nat.toDigits 10 value.natAbs).length ≤ 19 := by
    rw [Nat.length_toDigits_le_iff (by decide) (by decide)]
    omega
  unfold numeral
  split
  · rw [List.length_cons]
    omega
  · omega

/--
A buffer of 21 characters is enough, and reading and writing are inverse: a
string is read as a number exactly when it is what is written for it.
-/
theorem string2ll_iff_ll2string {value : Int} (range : InLongLong value)
    (string : List Char) :
    string2ll string = some value ↔ ll2string 21 value = some string := by
  have short := numeral_length_le range
  rw [string2ll_iff, ll2string_eq, if_pos (by omega), Option.some.injEq]
  constructor
  · rintro ⟨-, rfl⟩
    rfl
  · rintro rfl
    exact ⟨range, rfl⟩

/-- The smallest number needs the whole buffer. -/
theorem string2ll_iff_ll2string_smallest :
    string2ll "-9223372036854775808".toList =
        some (-9223372036854775808) ↔
      ll2string 21 (-9223372036854775808) =
        some "-9223372036854775808".toList :=
  string2ll_iff_ll2string (by decide) _

end NomadiCore.Redis
