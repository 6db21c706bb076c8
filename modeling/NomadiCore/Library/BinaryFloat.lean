import Mathlib.Algebra.Order.Field.Basic
import Mathlib.Data.Int.Log
import Mathlib.Data.Rat.Floor
import Mathlib.Tactic.FieldSimp
import Mathlib.Tactic.Linarith
import Mathlib.Tactic.Positivity
import Mathlib.Tactic.Ring

/-!
# Rounding to binary floating point

The number of the binary64 format that is nearest to a rational, ties going to
the even one.  The exponent is bounded below, so small numbers lose places and
vanish, and not above: overflow is left to the user of the format.
-/

namespace NomadiCore.Library.BinaryFloat

/-! ## Nearest integers -/

/-- The nearest integer, and of two that are equally near the even one. -/
def roundEven (value : ℚ) : Int :=
  if value - ⌊value⌋ < 1 / 2 then ⌊value⌋
  else if 1 / 2 < value - ⌊value⌋ then ⌊value⌋ + 1
  else if ⌊value⌋ % 2 = 0 then ⌊value⌋
  else ⌊value⌋ + 1

theorem roundEven_cases (value : ℚ) :
    roundEven value = ⌊value⌋ ∧ value - ⌊value⌋ ≤ 1 / 2 ∨
      roundEven value = ⌊value⌋ + 1 ∧ 1 / 2 ≤ value - ⌊value⌋ := by
  unfold roundEven
  split_ifs with below above even
  · exact Or.inl ⟨rfl, below.le⟩
  · exact Or.inr ⟨rfl, above.le⟩
  · exact Or.inl ⟨rfl, not_lt.mp above⟩
  · exact Or.inr ⟨rfl, not_lt.mp below⟩

theorem abs_roundEven_sub_le (value : ℚ) :
    |(roundEven value : ℚ) - value| ≤ 1 / 2 := by
  have low := Int.floor_le value
  have high := Int.lt_floor_add_one value
  rcases roundEven_cases value with ⟨rounded, near⟩ | ⟨rounded, near⟩
  · rw [rounded, abs_le]
    constructor <;> linarith
  · rw [rounded, abs_le]
    push_cast
    constructor <;> linarith

/-- Rounding does not pass an integer. -/
theorem le_roundEven {low : Int} {value : ℚ} (above : (low : ℚ) ≤ value) :
    low ≤ roundEven value := by
  have floor := Int.le_floor.mpr above
  rcases roundEven_cases value with ⟨rounded, -⟩ | ⟨rounded, -⟩
  · rw [rounded]
    exact floor
  · rw [rounded]
    omega

theorem roundEven_le {high : Int} {value : ℚ} (below : value ≤ high) :
    roundEven value ≤ high := by
  have floor : ⌊value⌋ ≤ high := by
    have cast := (Int.floor_le value).trans below
    exact_mod_cast cast
  rcases roundEven_cases value with ⟨rounded, -⟩ | ⟨rounded, near⟩
  · rw [rounded]
    exact floor
  · rw [rounded]
    -- half a unit above its floor, the value is no integer
    have different : ⌊value⌋ ≠ high := by
      rintro rfl
      linarith
    omega

theorem roundEven_intCast (value : Int) : roundEven value = value :=
  le_antisymm (roundEven_le le_rfl) (le_roundEven le_rfl)

/-! ## Doubles -/

/-- The exponent of the last place of a double of this size. -/
def lastPlace (value : ℚ) : Int :=
  max (Int.log 2 |value| - 52) (-1074)

/-- The double nearest to a number. -/
def toDouble (value : ℚ) : ℚ :=
  roundEven (value / 2 ^ lastPlace value) * 2 ^ lastPlace value

theorem place_pos (value : ℚ) : (0 : ℚ) < 2 ^ lastPlace value :=
  zpow_pos (by norm_num) _

@[simp]
theorem toDouble_zero : toDouble 0 = 0 := by
  have none := roundEven_intCast 0
  simp only [Int.cast_zero] at none
  simp [toDouble, none]

/-- Below `2 ^ 53` the last place is no coarser than one. -/
theorem lastPlace_nonpos {value : ℚ} (small : |value| < 2 ^ 53) :
    lastPlace value ≤ 0 := by
  rcases eq_or_ne value 0 with rfl | nonzero
  · simp [lastPlace]
  · have exponent : Int.log 2 |value| < 53 :=
      (Int.lt_zpow_iff_log_lt (by norm_num) (abs_pos.mpr nonzero)).mp
        (by exact_mod_cast small)
    simp only [lastPlace]
    omega

/-- An integer is a multiple of a last place that is not coarser than one. -/
theorem intCast_div_place {exponent : Int} (fine : exponent ≤ 0)
    (value : Int) :
    (value : ℚ) / 2 ^ exponent =
      ((value * 2 ^ (-exponent).toNat : Int) : ℚ) := by
  obtain ⟨places, rfl⟩ := Int.exists_eq_neg_ofNat fine
  simp [zpow_neg]

/-- Rounding a number below `2 ^ 53` does not pass an integer. -/
theorem le_toDouble {low : Int} {value : ℚ} (small : |value| < 2 ^ 53)
    (above : (low : ℚ) ≤ value) : (low : ℚ) ≤ toDouble value := by
  have place := place_pos value
  have scaled : (low : ℚ) / 2 ^ lastPlace value ≤
      value / 2 ^ lastPlace value :=
    div_le_div_of_nonneg_right above place.le
  have rounded := le_roundEven
    ((intCast_div_place (lastPlace_nonpos small) low).symm.le.trans scaled)
  rw [toDouble, ← div_le_iff₀ place,
    intCast_div_place (lastPlace_nonpos small)]
  exact_mod_cast rounded

theorem toDouble_le {high : Int} {value : ℚ} (small : |value| < 2 ^ 53)
    (below : value ≤ high) : toDouble value ≤ high := by
  have place := place_pos value
  have scaled : value / 2 ^ lastPlace value ≤
      (high : ℚ) / 2 ^ lastPlace value :=
    div_le_div_of_nonneg_right below place.le
  have rounded := roundEven_le
    (scaled.trans (intCast_div_place (lastPlace_nonpos small) high).le)
  rw [toDouble, ← le_div_iff₀ place,
    intCast_div_place (lastPlace_nonpos small)]
  exact_mod_cast rounded

/-! ## The error of rounding -/

theorem abs_toDouble_sub_le_place (value : ℚ) :
    |toDouble value - value| ≤ 2 ^ lastPlace value / 2 := by
  have place := place_pos value
  have near := abs_roundEven_sub_le (value / 2 ^ lastPlace value)
  have scaled : toDouble value - value =
      (roundEven (value / 2 ^ lastPlace value) -
          value / 2 ^ lastPlace value) * 2 ^ lastPlace value := by
    rw [toDouble, sub_mul, div_mul_cancel₀ _ place.ne']
  rw [scaled, abs_mul, abs_of_pos place]
  calc |(roundEven (value / 2 ^ lastPlace value) : ℚ) -
          value / 2 ^ lastPlace value| * 2 ^ lastPlace value
      ≤ 1 / 2 * 2 ^ lastPlace value :=
        mul_le_mul_of_nonneg_right near place.le
    _ = 2 ^ lastPlace value / 2 := by ring

/-- The smallest number that has all its places. -/
def smallestNormal : ℚ := 2 ^ (-1022 : Int)

theorem smallestNormal_pos : 0 < smallestNormal :=
  zpow_pos (by norm_num) _

theorem smallestNormal_le : smallestNormal ≤ 1 / 64 := by
  calc smallestNormal
      ≤ 2 ^ (-6 : Int) := zpow_le_zpow_right₀ (by norm_num) (by norm_num)
    _ = 1 / 64 := by norm_num

/-- A number that is not too small is rounded to 53 places. -/
theorem abs_toDouble_sub_le {value : ℚ} (normal : smallestNormal ≤ |value|) :
    |toDouble value - value| ≤ |value| / 2 ^ 53 := by
  have positive : 0 < |value| := smallestNormal_pos.trans_le normal
  have exponent : -1022 ≤ Int.log 2 |value| := by
    rw [← Int.zpow_le_iff_le_log (by norm_num) positive]
    exact_mod_cast normal
  have place : lastPlace value = Int.log 2 |value| - 52 := by
    simp only [lastPlace]
    omega
  have leading : (2 : ℚ) ^ Int.log 2 |value| ≤ |value| := by
    exact_mod_cast Int.zpow_log_le_self (b := 2) (by norm_num) positive
  have error := abs_toDouble_sub_le_place value
  rw [place, zpow_sub₀ (by norm_num)] at error
  calc |toDouble value - value|
      ≤ 2 ^ Int.log 2 |value| / 2 ^ (52 : Int) / 2 := error
    _ = 2 ^ Int.log 2 |value| / 2 ^ 53 := by
        rw [div_div]
        norm_num
    _ ≤ |value| / 2 ^ 53 :=
        div_le_div_of_nonneg_right leading (by positivity)

end NomadiCore.Library.BinaryFloat
