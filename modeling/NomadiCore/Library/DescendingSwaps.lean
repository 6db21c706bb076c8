import Mathlib.Data.Fintype.Perm
import Mathlib.Data.List.FinRange
import Mathlib.Tactic.Common

/-!
# Descending swaps

Walking from the last place of a list down to its second one, each place is
swapped with a drawn place at or below it.  The composite of the swaps is a
permutation of the places, and every permutation comes from exactly one
choice of draws: the draw made at the highest place is where that place ends
up, and what is left fixes that place.
-/

namespace NomadiCore.Library.DescendingSwaps

open Equiv

/--
One draw for every place of a list of `count` items but the first: the draw
made at place `step + 1` is a place up to `step + 1`.
-/
def Draws (count : Nat) : Type :=
  ∀ step : Fin (count - 1), Fin (step + 2)

namespace Draws

variable {count : Nat}

/-- The draw made at a place, `0` where none is made. -/
def drawAt (draws : Draws count) (place : Nat) : Nat :=
  if inside : place - 1 < count - 1 then (draws ⟨place - 1, inside⟩).val
  else 0

theorem drawAt_succ
    (draws : Draws count) {step : Nat} (inside : step < count - 1) :
    draws.drawAt (step + 1) = (draws ⟨step, inside⟩).val := by
  simp [drawAt, inside]

theorem drawAt_le (draws : Draws count) (step : Nat) :
    draws.drawAt (step + 1) ≤ step + 1 := by
  by_cases inside : step < count - 1
  · rw [drawAt_succ draws inside]
    exact Nat.le_of_lt_succ (draws ⟨step, inside⟩).isLt
  · simp [drawAt, inside]

/-- Draws are equal when they agree at every place. -/
theorem ext_drawAt
    {first second : Draws count}
    (agree : ∀ step, step < count - 1 →
      first.drawAt (step + 1) = second.drawAt (step + 1)) :
    first = second := by
  funext step
  apply Fin.ext
  have same := agree step.val step.isLt
  rw [drawAt_succ first step.isLt, drawAt_succ second step.isLt] at same
  exact same

/-- The draws that a choice of places makes. -/
def ofPlaces
    (places : Nat → Nat)
    (low : ∀ step, places (step + 1) ≤ step + 1) :
    Draws count :=
  fun step => ⟨places (step.val + 1), Nat.lt_succ_of_le (low step.val)⟩

@[simp]
theorem drawAt_ofPlaces
    (places : Nat → Nat)
    (low : ∀ step, places (step + 1) ≤ step + 1)
    {step : Nat} (inside : step < count - 1) :
    (ofPlaces places low : Draws count).drawAt (step + 1) =
      places (step + 1) := by
  rw [drawAt_succ _ inside]
  rfl

end Draws

section Permutations

variable {count : Nat}

/--
The permutation made by the swaps at the places from `steps` down to `1`: the
item that ends up at a place was at its image.
-/
def arrangeFrom (draws : Draws count) :
    (steps : Nat) → steps ≤ count - 1 → Perm (Fin count)
  | 0, _ => 1
  | steps + 1, inside =>
      swap (⟨steps + 1, by omega⟩ : Fin count)
          ⟨draws.drawAt (steps + 1), by
            have := draws.drawAt_le steps
            omega⟩ *
        arrangeFrom draws steps (by omega)

/-- The permutation made by all the swaps. -/
def arrangement (draws : Draws count) : Perm (Fin count) :=
  arrangeFrom draws (count - 1) le_rfl

/-- The swaps up to a place leave the places above it alone. -/
theorem arrangeFrom_above
    (draws : Draws count) {steps : Nat} (inside : steps ≤ count - 1)
    (place : Fin count) (above : steps < place.val) :
    arrangeFrom draws steps inside place = place := by
  induction steps with
  | zero => rfl
  | succ steps inductionHypothesis =>
      have low := draws.drawAt_le steps
      rw [arrangeFrom, Perm.mul_apply,
        inductionHypothesis (by omega) (by omega)]
      apply swap_apply_of_ne_of_ne
      · intro same
        have := congrArg Fin.val same
        simp only at this
        omega
      · intro same
        have := congrArg Fin.val same
        simp only at this
        omega

/-- The highest place that is swapped receives the item at its draw. -/
theorem arrangeFrom_highest
    (draws : Draws count) {steps : Nat} (inside : steps + 1 ≤ count - 1) :
    (arrangeFrom draws (steps + 1) inside ⟨steps + 1, by omega⟩).val =
      draws.drawAt (steps + 1) := by
  rw [arrangeFrom, Perm.mul_apply,
    arrangeFrom_above draws (by omega) _ (by simp), swap_apply_left]

/-- Different draws make different permutations. -/
theorem drawAt_eq_of_arrangeFrom_eq
    (first second : Draws count)
    {steps : Nat} (inside : steps ≤ count - 1)
    (same : arrangeFrom first steps inside = arrangeFrom second steps inside)
    {step : Nat} (below : step < steps) :
    first.drawAt (step + 1) = second.drawAt (step + 1) := by
  induction steps with
  | zero => omega
  | succ steps inductionHypothesis =>
      have highest :
          first.drawAt (steps + 1) = second.drawAt (steps + 1) := by
        rw [← arrangeFrom_highest first inside,
          ← arrangeFrom_highest second inside, same]
      by_cases atTop : step = steps
      · rw [atTop]
        exact highest
      · apply inductionHypothesis (by omega) _ (by omega)
        simp only [arrangeFrom, highest] at same
        exact mul_left_cancel same

/-- The permutation depends on the draws at the swapped places only. -/
theorem arrangeFrom_congr
    (first second : Draws count)
    {steps : Nat} (inside : steps ≤ count - 1)
    (agree : ∀ step, step < steps →
      first.drawAt (step + 1) = second.drawAt (step + 1)) :
    arrangeFrom first steps inside = arrangeFrom second steps inside := by
  induction steps with
  | zero => rfl
  | succ steps inductionHypothesis =>
      have rest := inductionHypothesis (by omega)
        (fun step below => agree step (by omega))
      simp only [arrangeFrom, agree steps (by omega), rest]

/-- A permutation that fixes the places above `steps` keeps the others low. -/
theorem image_le_of_fixesAbove
    {steps : Nat} {permutation : Perm (Fin count)}
    (fixesAbove : ∀ place : Fin count,
      steps < place.val → permutation place = place)
    {place : Fin count} (low : place.val ≤ steps) :
    (permutation place).val ≤ steps := by
  by_contra high
  have fixed := fixesAbove (permutation place) (by omega)
  have back := permutation.injective fixed
  rw [back] at high
  exact high low

/-- Undoing the swap at the highest moved place fixes that place as well. -/
theorem fixesAbove_swap_mul
    {steps : Nat} {permutation : Perm (Fin count)}
    (topBelow : steps + 1 < count)
    (fixesAbove : ∀ place : Fin count,
      steps + 1 < place.val → permutation place = place)
    (place : Fin count) (above : steps < place.val) :
    (swap ⟨steps + 1, topBelow⟩ (permutation ⟨steps + 1, topBelow⟩) *
      permutation) place = place := by
  by_cases isTop : place = ⟨steps + 1, topBelow⟩
  · rw [isTop, Perm.mul_apply, swap_apply_right]
  · have higher : steps + 1 < place.val := by
      have : place.val ≠ steps + 1 := fun same => isTop (Fin.ext same)
      omega
    have topLow : (permutation ⟨steps + 1, topBelow⟩).val ≤ steps + 1 :=
      image_le_of_fixesAbove fixesAbove le_rfl
    rw [Perm.mul_apply, fixesAbove place higher]
    apply swap_apply_of_ne_of_ne isTop
    intro same
    rw [← same] at topLow
    omega

/-- Every permutation that fixes the places above `steps` is made. -/
theorem exists_arrangeFrom_eq
    {steps : Nat} (inside : steps ≤ count - 1)
    (permutation : Perm (Fin count))
    (fixesAbove : ∀ place : Fin count,
      steps < place.val → permutation place = place) :
    ∃ draws : Draws count,
      arrangeFrom draws steps inside = permutation := by
  induction steps generalizing permutation with
  | zero =>
      refine ⟨Draws.ofPlaces (fun _ => 0) (fun _ => Nat.zero_le _), ?_⟩
      ext place
      show place.val = (permutation place).val
      by_cases first : place.val ≤ 0
      · have := image_le_of_fixesAbove fixesAbove first
        omega
      · rw [fixesAbove place (by omega)]
  | succ steps inductionHypothesis =>
      have topBelow : steps + 1 < count := by omega
      -- undo the swap at the top place and use the hypothesis below it
      obtain ⟨rest, restEq⟩ :=
        inductionHypothesis (by omega) _
          (fixesAbove_swap_mul topBelow fixesAbove)
      have low : (permutation ⟨steps + 1, topBelow⟩).val ≤ steps + 1 :=
        image_le_of_fixesAbove fixesAbove le_rfl
      let places : Nat → Nat := fun place =>
        if place = steps + 1 then (permutation ⟨steps + 1, topBelow⟩).val
        else rest.drawAt place
      have placesLow : ∀ step, places (step + 1) ≤ step + 1 := by
        intro step
        by_cases atTop : step = steps
        · simpa [places, atTop] using low
        · simpa [places, atTop] using rest.drawAt_le step
      refine ⟨Draws.ofPlaces places placesLow, ?_⟩
      rw [arrangeFrom, arrangeFrom_congr _ rest, restEq]
      · simp only [Draws.drawAt_ofPlaces _ _ (by omega : steps < count - 1),
          places, if_true, Fin.eta]
        rw [← mul_assoc, swap_mul_self, one_mul]
      · intro step below
        rw [Draws.drawAt_ofPlaces _ _ (by omega)]
        simp only [places, Nat.add_right_cancel_iff]
        rw [if_neg (by omega)]

/-- Draw sequences and permutations of the places correspond one to one. -/
theorem arrangement_bijective :
    Function.Bijective (arrangement : Draws count → Perm (Fin count)) := by
  constructor
  · intro first second same
    apply Draws.ext_drawAt
    intro step inside
    exact drawAt_eq_of_arrangeFrom_eq first second le_rfl same inside
  · intro permutation
    apply exists_arrangeFrom_eq le_rfl permutation
    intro place above
    omega

end Permutations

end NomadiCore.Library.DescendingSwaps
