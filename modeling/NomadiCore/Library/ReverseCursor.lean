import Mathlib.Algebra.Ring.Nat
import Mathlib.Tactic.Common

/-!
# Cursors that count from the highest bit

A table of `2 ^ bits` places keeps a word in the place that its lowest bits
name.  A cursor over such tables is a word too, and it counts with the bits in
reversed order: the words of one place are then an interval of `rank`s, for
every number of bits, and a cursor that moves to the end of such an interval
has passed the same words whatever the size of the table was.
-/

namespace NomadiCore.Library.ReverseCursor

variable {width bits less more : Nat} {word other cursor : BitVec width}

/-- The lowest bits set. -/
def mask (width bits : Nat) : BitVec width := BitVec.ofNat width (2 ^ bits - 1)

/-- The place of a word in the order of the reversed words. -/
def rank (word : BitVec width) : Nat := word.reverse.toNat

/-- The number of words that share a place. -/
def block (width bits : Nat) : Nat := 2 ^ (width - bits)

/-- The rank after the words that share a place with this one. -/
def stop (bits : Nat) (word : BitVec width) : Nat :=
  (rank word / block width bits + 1) * block width bits

/-- The bits outside the mask carry the increment to the bits inside. -/
def advance (bits : Nat) (cursor : BitVec width) : BitVec width :=
  ((cursor ||| ~~~mask width bits).reverse + BitVec.ofNat width 1).reverse

/-! ## Bits -/

@[simp]
theorem getLsbD_mask (index : Nat) :
    (mask width bits).getLsbD index =
      (decide (index < width) && decide (index < bits)) := by
  simp [mask, BitVec.getLsbD_ofNat]

@[simp]
theorem testBit_rank (index : Nat) :
    (rank word).testBit index = word.getMsbD index := by
  rw [rank, BitVec.testBit_toNat, BitVec.getLsbD_reverse]

theorem rank_lt (word : BitVec width) : rank word < 2 ^ width :=
  word.reverse.isLt

@[simp]
theorem rank_reverse (word : BitVec width) :
    rank word.reverse = word.toNat := by
  rw [rank, BitVec.reverse_reverse_eq]

@[simp]
theorem rank_zero : rank (BitVec.ofNat width 0) = 0 := by
  have zero : (BitVec.ofNat width 0).reverse = BitVec.ofNat width 0 :=
    BitVec.reverse_eq_zero_iff.mpr rfl
  rw [rank, zero]
  rfl

theorem rank_eq_zero_iff : rank word = 0 ↔ word = BitVec.ofNat width 0 := by
  rw [rank, ← BitVec.reverse_eq_zero_iff (x := word)]
  constructor
  · intro zero
    exact BitVec.eq_of_toNat_eq (by simpa using zero)
  · intro zero
    rw [zero]
    rfl

theorem block_pos (width bits : Nat) : 0 < block width bits :=
  Nat.two_pow_pos _

theorem block_mul (bound : bits ≤ width) :
    2 ^ bits * block width bits = 2 ^ width := by
  rw [block, ← Nat.pow_add]
  congr 1
  omega

/-! ## Places -/

/-- The words of one place are an interval of ranks. -/
theorem and_mask_eq_iff (bound : bits ≤ width) :
    word &&& mask width bits = other &&& mask width bits ↔
      rank word / block width bits = rank other / block width bits := by
  constructor
  · intro same
    apply Nat.eq_of_testBit_eq
    intro index
    simp only [block, Nat.testBit_div_two_pow, testBit_rank,
      BitVec.getMsbD_eq_getLsbD]
    by_cases inside : index + (width - bits) < width
    · have bit := congrArg
        (fun value => value.getLsbD (width - 1 - (index + (width - bits))))
        same
      have low : width - 1 - (index + (width - bits)) < bits := by omega
      have isIndex : width - 1 - (index + (width - bits)) < width := by omega
      simp only [BitVec.getLsbD_and, getLsbD_mask, low, isIndex, decide_true,
        Bool.and_true] at bit
      rw [bit]
    · simp [inside]
  · intro same
    apply BitVec.eq_of_getLsbD_eq
    intro index isIndex
    simp only [BitVec.getLsbD_and, getLsbD_mask]
    by_cases low : index < bits
    · have bit := congrArg (fun value => value.testBit (bits - 1 - index)) same
      have inside : bits - 1 - index + (width - bits) < width := by omega
      have isLow : width - 1 - (bits - 1 - index + (width - bits)) = index := by
        omega
      simp only [block, Nat.testBit_div_two_pow, testBit_rank,
        BitVec.getMsbD_eq_getLsbD, inside, isLow, decide_true,
        Bool.true_and] at bit
      rw [bit]
    · simp [low]

theorem rank_div_of_lt_stop (least : rank cursor ≤ rank word)
    (less : rank word < stop bits cursor) :
    rank word / block width bits = rank cursor / block width bits := by
  have positive := block_pos width bits
  apply Nat.le_antisymm
  · exact Nat.lt_succ_iff.mp ((Nat.div_lt_iff_lt_mul positive).mpr less)
  · exact Nat.div_le_div_right least

/-- Words between a cursor and the end of its place are in its place. -/
theorem and_mask_of_lt_stop (bound : bits ≤ width)
    (least : rank cursor ≤ rank word) (less : rank word < stop bits cursor) :
    word &&& mask width bits = cursor &&& mask width bits :=
  (and_mask_eq_iff bound).mpr (rank_div_of_lt_stop least less)

/-! ## Counting -/

theorem lt_stop (bits : Nat) (word : BitVec width) :
    rank word < stop bits word :=
  Nat.lt_mul_of_div_lt (Nat.lt_succ_self _) (block_pos width bits)

theorem stop_le (bound : bits ≤ width) (word : BitVec width) :
    stop bits word ≤ 2 ^ width := by
  have below : rank word / block width bits < 2 ^ bits := by
    rw [Nat.div_lt_iff_lt_mul (block_pos width bits), block_mul bound]
    exact rank_lt word
  calc
    stop bits word ≤ 2 ^ bits * block width bits :=
      Nat.mul_le_mul_right _ below
    _ = 2 ^ width := block_mul bound

theorem or_ones (value count : Nat) :
    value ||| (2 ^ count - 1) =
      value / 2 ^ count * 2 ^ count + (2 ^ count - 1) := by
  have small : 2 ^ count - 1 < 2 ^ count := by
    have positive := Nat.two_pow_pos count
    omega
  rw [← Nat.shiftLeft_eq, Nat.shiftLeft_add_eq_or_of_lt small]
  apply Nat.eq_of_testBit_eq
  intro index
  simp only [Nat.testBit_or, Nat.testBit_two_pow_sub_one,
    Nat.testBit_shiftLeft, Nat.testBit_div_two_pow]
  by_cases low : index < count
  · simp [low]
  · have back : index - count + count = index := by omega
    have high : count ≤ index := by omega
    simp [low, high, back]

theorem rank_or_not_mask (bound : bits ≤ width) :
    rank (cursor ||| ~~~mask width bits) + 1 = stop bits cursor := by
  have filled : rank (cursor ||| ~~~mask width bits) =
      rank cursor ||| (2 ^ (width - bits) - 1) := by
    apply Nat.eq_of_testBit_eq
    intro index
    simp only [testBit_rank, Nat.testBit_or, Nat.testBit_two_pow_sub_one,
      BitVec.getMsbD_eq_getLsbD, BitVec.getLsbD_or, BitVec.getLsbD_not,
      getLsbD_mask]
    by_cases inside : index < width
    · have isIndex : width - 1 - index < width := by omega
      by_cases low : index < width - bits
      · have high : ¬ width - 1 - index < bits := by omega
        simp [inside, isIndex, low, high]
      · have high : width - 1 - index < bits := by omega
        simp only [inside, isIndex, low, high, decide_true, decide_false,
          Bool.and_true, Bool.true_and, Bool.not_true, Bool.and_false,
          Bool.or_false]
    · have outside : ¬ index < width - bits := by omega
      simp [inside, outside]
  have positive := block_pos width bits
  rw [filled, or_ones, stop, block, Nat.add_mul, Nat.one_mul]
  rw [block] at positive
  omega

/-- A cursor goes to the end of its place, or back to zero. -/
theorem rank_advance (bound : bits ≤ width) (cursor : BitVec width) :
    rank (advance bits cursor) = stop bits cursor % 2 ^ width := by
  rw [advance, rank_reverse, BitVec.toNat_add, BitVec.toNat_ofNat,
    ← rank_or_not_mask bound, Nat.add_mod_mod]
  rfl

theorem rank_advance_of_ne_zero (bound : bits ≤ width)
    (nonzero : advance bits cursor ≠ BitVec.ofNat width 0) :
    rank (advance bits cursor) = stop bits cursor := by
  have least := stop_le bound cursor
  rw [rank_advance bound, Nat.mod_eq_of_lt]
  apply Nat.lt_of_le_of_ne least
  intro full
  apply nonzero
  rw [← rank_eq_zero_iff, rank_advance bound, full, Nat.mod_self]

/-! ## Two sizes -/

theorem block_dvd_stop (bits : Nat) (word : BitVec width) :
    block width bits ∣ stop bits word :=
  Nat.dvd_mul_left _ _

theorem block_dvd_block (order : less ≤ more) :
    block width more ∣ block width less :=
  Nat.pow_dvd_pow 2 (by omega)

theorem stop_le_of_dvd {bound : Nat} (aligned : block width bits ∣ bound)
    (less : rank word < bound) : stop bits word ≤ bound := by
  obtain ⟨count, rfl⟩ := aligned
  have below : rank word / block width bits < count := by
    rw [Nat.div_lt_iff_lt_mul (block_pos width bits), Nat.mul_comm]
    exact less
  calc
    stop bits word ≤ count * block width bits :=
      Nat.mul_le_mul_right _ below
    _ = block width bits * count := Nat.mul_comm _ _

/-- A cursor of the larger table is at a place of the smaller one. -/
theorem and_xor_eq_zero_iff (order : less ≤ more) (bound : more ≤ width)
    (aligned : block width more ∣ rank cursor) :
    cursor &&& (mask width less ^^^ mask width more) = BitVec.ofNat width 0 ↔
      block width less ∣ rank cursor := by
  have zeros (bits : Nat) (isBits : bits ≤ width) :
      block width bits ∣ rank cursor ↔
        ∀ index, bits ≤ index → cursor.getLsbD index = false := by
    rw [block, Nat.dvd_iff_mod_eq_zero]
    constructor
    · intro zero index high
      by_cases inside : index < width
      · have bit := congrArg
          (fun value => value.testBit (width - 1 - index)) zero
        simp only [Nat.testBit_mod_two_pow, testBit_rank,
          BitVec.getMsbD_eq_getLsbD, Nat.zero_testBit] at bit
        have low : width - 1 - index < width - bits := by omega
        have isBit : width - 1 - index < width := by omega
        have back : width - 1 - (width - 1 - index) = index := by omega
        simpa [low, isBit, back] using bit
      · exact BitVec.getLsbD_of_ge cursor index (by omega)
    · intro clear
      apply Nat.eq_of_testBit_eq
      intro index
      rw [Nat.testBit_mod_two_pow, testBit_rank, BitVec.getMsbD_eq_getLsbD,
        Nat.zero_testBit]
      by_cases low : index < width - bits
      · rw [clear (width - 1 - index) (by omega)]
        simp
      · simp [low]
  rw [zeros less (by omega)]
  have above := (zeros more bound).mp aligned
  constructor
  · intro zero index high
    by_cases inside : index < more
    · have bit := congrArg (fun value => value.getLsbD index) zero
      have isIndex : index < width := by omega
      have notLow : ¬ index < less := by omega
      simpa only [BitVec.getLsbD_and, BitVec.getLsbD_xor, getLsbD_mask,
        isIndex, inside, notLow, decide_true, decide_false, Bool.and_false,
        Bool.and_true, Bool.false_xor, BitVec.getLsbD_zero] using bit
    · exact above index (by omega)
  · intro clear
    apply BitVec.eq_of_getLsbD_eq
    intro index isIndex
    by_cases low : index < less
    · have isLow : index < more := by omega
      simp only [BitVec.getLsbD_and, BitVec.getLsbD_xor, getLsbD_mask,
        isIndex, low, isLow, decide_true, Bool.and_true, Bool.xor_self,
        Bool.and_false, BitVec.getLsbD_zero]
    · rw [BitVec.getLsbD_and, clear index (by omega)]
      simp

end NomadiCore.Library.ReverseCursor
