import Mathlib.Algebra.Order.Field.Basic
import Mathlib.Data.List.Sort
import Mathlib.Tactic.Linarith
import Mathlib.Tactic.Ring

/-!
# Medians

The median of a list is the mean of its two middle values in order, which are
the same value when the length is odd.  It is a relation between a list and a
scalar, so that it does not mention how the list is sorted.  At least half of
the values lie on either side of it.
-/

namespace NomadiCore.Library.Median

/-! ## Positions of ordered lists -/

section Positions

variable {Value : Type} [LinearOrder Value]

/-- An ordered list around one of its positions. -/
theorem ordered_around
    {sorted : List Value} (ordered : sorted.Pairwise (· ≤ ·))
    {position : Nat} {value : Value}
    (found : sorted[position]? = some value) :
    ∃ front back,
      sorted = front ++ value :: back ∧ front.length = position ∧
        (∀ other ∈ front, other ≤ value) ∧
        ∀ other ∈ back, value ≤ other := by
  obtain ⟨inside, isValue⟩ := List.getElem?_eq_some_iff.mp found
  have split :
      sorted = sorted.take position ++ value :: sorted.drop (position + 1) := by
    rw [← isValue, List.getElem_cons_drop, List.take_append_drop]
  refine ⟨_, _, split, List.length_take_of_le inside.le, ?_, ?_⟩
  · rw [split] at ordered
    intro other member
    exact (List.pairwise_append.mp ordered).2.2 other member value
      (List.mem_cons_self ..)
  · rw [split] at ordered
    have rest := (List.pairwise_append.mp ordered).2.1
    exact (List.pairwise_cons.mp rest).1

/-- Up to a position all values are at most the one found there. -/
theorem position_lt_countP_le
    {sorted : List Value} (ordered : sorted.Pairwise (· ≤ ·))
    {position : Nat} {value : Value}
    (found : sorted[position]? = some value) :
    position < sorted.countP fun other => other ≤ value := by
  obtain ⟨front, back, rfl, rfl, below, -⟩ := ordered_around ordered found
  have all : front.countP (fun other => other ≤ value) = front.length :=
    List.countP_eq_length.mpr fun other member => by
      simpa using below other member
  rw [List.countP_append, List.countP_cons, all]
  simp only [le_refl, decide_true, if_true]
  omega

/-- From a position on all values are at least the one found there. -/
theorem length_le_countP_ge
    {sorted : List Value} (ordered : sorted.Pairwise (· ≤ ·))
    {position : Nat} {value : Value}
    (found : sorted[position]? = some value) :
    sorted.length ≤
      position + sorted.countP fun other => value ≤ other := by
  obtain ⟨front, back, rfl, rfl, -, above⟩ := ordered_around ordered found
  have all : back.countP (fun other => value ≤ other) = back.length :=
    List.countP_eq_length.mpr fun other member => by
      simpa using above other member
  rw [List.countP_append, List.countP_cons, all, List.length_append,
    List.length_cons]
  simp only [le_refl, decide_true, if_true]
  omega

end Positions

/-! ## Medians -/

variable {Scalar : Type} [Field Scalar] [LinearOrder Scalar]

/-- `median` is the median of `values`. -/
def IsMedian (values : List Scalar) (median : Scalar) : Prop :=
  ∃ sorted : List Scalar, ∃ lower upper,
    sorted.Perm values ∧
      sorted.Pairwise (· ≤ ·) ∧
      sorted[(values.length - 1) / 2]? = some lower ∧
      sorted[values.length / 2]? = some upper ∧
      median = (lower + upper) / 2

namespace IsMedian

/-- A list has at most one median. -/
theorem unique
    {values : List Scalar} {first second : Scalar}
    (isFirst : IsMedian values first)
    (isSecond : IsMedian values second) :
    first = second := by
  obtain ⟨left, leftLower, leftUpper, leftPerm, leftSorted, leftLowerAt,
    leftUpperAt, rfl⟩ := isFirst
  obtain ⟨right, rightLower, rightUpper, rightPerm, rightSorted,
    rightLowerAt, rightUpperAt, rfl⟩ := isSecond
  have same : left = right :=
    (leftPerm.trans rightPerm.symm).eq_of_pairwise'
      leftSorted rightSorted
  subst same
  rw [leftLowerAt] at rightLowerAt
  rw [leftUpperAt] at rightUpperAt
  cases rightLowerAt
  cases rightUpperAt
  rfl

/-- A median lies between the bounds of its values. -/
theorem bounds [IsStrictOrderedRing Scalar]
    {values : List Scalar} {median low high : Scalar}
    (isMedian : IsMedian values median)
    (bounded : ∀ value ∈ values, low ≤ value ∧ value ≤ high) :
    low ≤ median ∧ median ≤ high := by
  obtain ⟨sorted, lower, upper, perm, -, lowerAt, upperAt, rfl⟩ := isMedian
  have lowerBounds :=
    bounded lower (perm.mem_iff.mp (List.mem_of_getElem? lowerAt))
  have upperBounds :=
    bounded upper (perm.mem_iff.mp (List.mem_of_getElem? upperAt))
  constructor
  · linarith [lowerBounds.1, upperBounds.1]
  · linarith [lowerBounds.2, upperBounds.2]

/-- An odd list has its middle value as its median. -/
theorem of_odd [NeZero (2 : Scalar)]
    {values : List Scalar} {middle : Scalar}
    (odd : values.length % 2 = 1)
    (found :
      (values.insertionSort (· ≤ ·))[values.length / 2]? = some middle) :
    IsMedian values middle := by
  have same : (values.length - 1) / 2 = values.length / 2 := by omega
  refine ⟨_, middle, middle, List.perm_insertionSort _ _,
    List.pairwise_insertionSort _ _, ?_, found, ?_⟩
  · rw [same]
    exact found
  · rw [add_self_div_two]

/-- An even list has the mean of its middle values as its median. -/
theorem of_even
    {values : List Scalar} {lower upper : Scalar}
    (even : values.length % 2 = 0)
    (lowerFound :
      (values.insertionSort (· ≤ ·))[values.length / 2 - 1]? =
        some lower)
    (upperFound :
      (values.insertionSort (· ≤ ·))[values.length / 2]? = some upper) :
    IsMedian values ((upper + lower) / 2) := by
  have before : (values.length - 1) / 2 = values.length / 2 - 1 := by omega
  refine ⟨_, lower, upper, List.perm_insertionSort _ _,
    List.pairwise_insertionSort _ _, ?_, upperFound, ?_⟩
  · rw [before]
    exact lowerFound
  · rw [add_comm]

theorem perm
    {values other : List Scalar} {median : Scalar}
    (isMedian : IsMedian values median) (same : values.Perm other) :
    IsMedian other median := by
  obtain ⟨sorted, lower, upper, perm, ordered, lowerAt, upperAt, mean⟩ :=
    isMedian
  rw [same.length_eq] at lowerAt upperAt
  exact ⟨sorted, lower, upper, perm.trans same, ordered, lowerAt, upperAt,
    mean⟩

/-- The middle values in any ordered arrangement. -/
theorem middle
    {values : List Scalar} {median : Scalar}
    (isMedian : IsMedian values median)
    {sorted : List Scalar} (arranged : sorted.Perm values)
    (ordered : sorted.Pairwise (· ≤ ·)) :
    ∃ lower upper,
      sorted[(values.length - 1) / 2]? = some lower ∧
        sorted[values.length / 2]? = some upper ∧
        median = (lower + upper) / 2 := by
  obtain ⟨other, lower, upper, perm, otherOrdered, lowerAt, upperAt, mean⟩ :=
    isMedian
  have same : other = sorted :=
    (perm.trans arranged.symm).eq_of_pairwise' otherOrdered ordered
  subst same
  exact ⟨lower, upper, lowerAt, upperAt, mean⟩

/-- The median of an odd list is the middle of any ordered arrangement. -/
theorem middle_of_odd [NeZero (2 : Scalar)]
    {values : List Scalar} {median : Scalar}
    (isMedian : IsMedian values median) (odd : values.length % 2 = 1)
    {sorted : List Scalar} (arranged : sorted.Perm values)
    (ordered : sorted.Pairwise (· ≤ ·)) :
    sorted[values.length / 2]? = some median := by
  obtain ⟨lower, upper, lowerAt, upperAt, mean⟩ :=
    isMedian.middle arranged ordered
  have samePosition : (values.length - 1) / 2 = values.length / 2 := by omega
  rw [samePosition, upperAt] at lowerAt
  cases lowerAt
  rw [mean, add_self_div_two]
  exact upperAt

/-- The median of an even list is the mean of its two middle values. -/
theorem middle_of_even
    {values : List Scalar} {median : Scalar}
    (isMedian : IsMedian values median) (even : values.length % 2 = 0)
    {sorted : List Scalar} (arranged : sorted.Perm values)
    (ordered : sorted.Pairwise (· ≤ ·)) :
    ∃ lower upper,
      sorted[values.length / 2 - 1]? = some lower ∧
        sorted[values.length / 2]? = some upper ∧
        median = (lower + upper) / 2 := by
  have before : (values.length - 1) / 2 = values.length / 2 - 1 := by omega
  rw [← before]
  exact isMedian.middle arranged ordered

variable [IsStrictOrderedRing Scalar]

/-- The median lies between the two middle values. -/
theorem between_middle
    {values : List Scalar} {median : Scalar}
    (isMedian : IsMedian values median) :
    ∃ sorted : List Scalar, ∃ lower upper,
      sorted.Perm values ∧ sorted.Pairwise (· ≤ ·) ∧
        sorted[(values.length - 1) / 2]? = some lower ∧
        sorted[values.length / 2]? = some upper ∧
        lower ≤ median ∧ median ≤ upper := by
  obtain ⟨sorted, lower, upper, perm, ordered, lowerAt, upperAt, rfl⟩ :=
    isMedian
  have order : lower ≤ upper := by
    obtain ⟨lowerInside, rfl⟩ := List.getElem?_eq_some_iff.mp lowerAt
    obtain ⟨upperInside, rfl⟩ := List.getElem?_eq_some_iff.mp upperAt
    rcases Nat.lt_or_ge ((values.length - 1) / 2) (values.length / 2)
      with earlier | notEarlier
    · exact List.pairwise_iff_getElem.mp ordered _ _ _ _ earlier
    · have samePosition :
          (values.length - 1) / 2 = values.length / 2 := by omega
      exact le_of_eq (getElem_congr_idx samePosition)
  refine ⟨sorted, lower, upper, perm, ordered, lowerAt, upperAt, ?_, ?_⟩
  · linarith
  · linarith

/-- At least half of the values are at most the median. -/
theorem half_le
    {values : List Scalar} {median : Scalar}
    (isMedian : IsMedian values median) :
    values.length ≤ 2 * values.countP fun value => value ≤ median := by
  obtain ⟨sorted, lower, upper, perm, ordered, lowerAt, -, below, -⟩ :=
    isMedian.between_middle
  have upToLower := position_lt_countP_le ordered lowerAt
  have upToMedian :
      sorted.countP (fun value => value ≤ lower) ≤
        sorted.countP fun value => value ≤ median := by
    apply List.countP_mono_left
    intro value _ small
    simpa using (le_trans (by simpa using small) below)
  rw [perm.countP_eq (fun value => value ≤ median)] at upToMedian
  omega

/-- At least half of the values are at least the median. -/
theorem half_ge
    {values : List Scalar} {median : Scalar}
    (isMedian : IsMedian values median) :
    values.length ≤ 2 * values.countP fun value => median ≤ value := by
  obtain ⟨sorted, lower, upper, perm, ordered, -, upperAt, -, above⟩ :=
    isMedian.between_middle
  have fromUpper := length_le_countP_ge ordered upperAt
  have fromMedian :
      sorted.countP (fun value => upper ≤ value) ≤
        sorted.countP fun value => median ≤ value := by
    apply List.countP_mono_left
    intro value _ large
    simpa using (le_trans above (by simpa using large))
  rw [perm.countP_eq (fun value => median ≤ value)] at fromMedian
  rw [perm.length_eq] at fromUpper
  omega

end IsMedian

end NomadiCore.Library.Median
